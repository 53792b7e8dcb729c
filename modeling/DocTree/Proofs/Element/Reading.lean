import DocTree.Proofs.Descriptor.Conforming
import DocTree.Proofs.Element.Json

/-! Reading of elements that have the format of descriptors. What the format leaves open is only
whether a field is there, so that every entry of a list is one of the known elements, every text of
it is the one that was written, and nothing is passed over. -/

namespace DocTree

namespace Element

open Keyed

end Element

namespace Descriptor

open Element Schema Keyed

end Descriptor

end DocTree
