import DocTree.Moment
import DocTree.Text.Numeral

/-! What can be wrong with a text in a data format. -/

namespace DocTree

/-- What is wrong with a text in a data format. -/
inductive FormatFault where
  /-- it does not follow the rules of the format, and this is what its reader tells of it -/
  | grammar (detail : String)
  /-- a numeral cannot be read -/
  | numeral (fault : Text.NumeralFault)
  /-- an escape gives the number of no character -/
  | notCharacter (code : Nat)
  /-- a word that has to be a truth value is none -/
  | notTruth
  /-- a text that has to be a moment is none -/
  | notMoment
  /-- fields stand where a moment has to be -/
  | fieldsForMoment
  /-- there is no such moment -/
  | moment (fault : Moment.Fault)
  /-- lists and objects lie too deep in one another, or in themselves -/
  | tooDeep
deriving DecidableEq, Repr

end DocTree
