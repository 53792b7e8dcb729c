import DocTree.Comment.Scan
import DocTree.Kind
import DocTree.Link

/-! Problems: what can be wrong with the comments of a package, and the texts that tell of it. A
problem does not stop the work. -/

namespace DocTree

/-- Something wrong with a comment or with what it refers to. -/
inductive Problem where
  | lexical (problem : LexicalProblem)
  | link (problem : Link.Problem)
  | unexpectedText (excerpt : String)
  | severalReleaseTags
  | preapprovedNotInternal
  | deprecationMissing
  | paramMissing
  | paramWithoutHyphen
  | paramEmpty (name : String)
  | unsupportedTag (tag : String)
  | inlineTagOnly (tag : String)
  | blockTagOnly (tag : String)
  | summaryWithInherited
  | contentWithInherited (tag : String)
  | inheritedPattern
  | inheritedReference (problem : Reference.Problem)
  | inheritedFormat (text : String)
  | inheritedDeprecated
  | internalTarget (reference : Reference)
  | missingExport (reference : Reference)
  | missingMember (reference : Reference)
  | missingPackage (reference : Reference)
  | circular
  | packageReleaseTag (tag : ReleaseTag)
  | releaseTagMissing (name : String)
  | preapprovedKind
  | packageTagMissing
  | packageTagOn (kind : Kind)
deriving DecidableEq, Repr

namespace Problem

/-- The text that tells of a problem. -/
def message : Problem → String
  | lexical p => p.message
  | link p => p.message
  | unexpectedText excerpt => "Unexpected text in doc comment: \"" ++ excerpt ++ "\""
  | severalReleaseTags => "More than one API tag (@alpha, @beta, etc) was specified"
  | preapprovedNotInternal =>
    "The @preapproved tag may only be applied to @internal definitions"
  | deprecationMissing => "A deprecation message is required after the @deprecated tag"
  | paramMissing => "The @param tag is missing a parameter description"
  | paramWithoutHyphen =>
    "The @param tag is missing the hyphen that delimits the parameter name and description"
  | paramEmpty name =>
    "The @param tag for \"" ++ name ++ "\" has an empty description after the hyphen"
  | unsupportedTag tag => "The tag \"" ++ tag ++ "\" is not supported"
  | inlineTagOnly tag =>
    "The tag \"" ++ tag ++ "\" must use the inline tag notation (i.e. with curly braces)"
  | blockTagOnly tag =>
    "The tag \"" ++ tag ++ "\" must use the block tag notation (i.e. no curly braces)"
  | summaryWithInherited =>
    "A summary block is not allowed here, because the @inheritdoc target provides the summary"
  | contentWithInherited tag =>
    "The " ++ tag ++ " tag may not be used because this state is provided by the @inheritdoc target"
  | inheritedPattern =>
    "The \x7b@inheritdoc\x7d tag does not match the expected pattern " ++
      "\"\x7b@inheritdoc @scopeName/packageName:exportName\x7d\""
  | inheritedReference p => p.message
  | inheritedFormat text => "Incorrectly formatted API item reference: \"" ++ text ++ "\""
  | inheritedDeprecated =>
    "The @inheritdoc source is deprecated. Either include a @deprecated message on this item or " ++
      "remove the @inheritdoc tag and copy the documentation."
  | internalTarget r =>
    "The \x7b@link\x7d tag cannot link to Internal item \"" ++ r.text ++
      "\", which will not appear in the generated documentation"
  | missingExport r => "Unable to find referenced export \"" ++ r.exportText ++ "\""
  | missingMember r => "Unable to find referenced member \"" ++ r.text ++ "\""
  | missingPackage r => "Unable to find referenced package \"" ++ r.packageKey ++ "\""
  | circular => "circular reference"
  | packageReleaseTag tag =>
    "The " ++ tag.tagName ++ " tag is not allowed on the package, which is always public"
  | releaseTagMissing name =>
    "A release tag (@alpha, @beta, @public, @internal) must be specified for " ++ name
  | preapprovedKind => "The @preapproved tag may only be applied to classes and interfaces"
  | packageTagMissing =>
    "A package comment was found, but it is missing the @packagedocumentation tag"
  | packageTagOn kind =>
    "The @packagedocumentation tag cannot be used for an item of type " ++ kind.name

end Problem

/-- A remark on the name of an item, which does not count as a problem. -/
inductive Warning where
  | unsupportedName (name : String)
  | underscoreNotInternal
  | internalWithoutUnderscore
deriving DecidableEq, Repr

/-- The text of a remark. -/
def Warning.message : Warning → String
  | unsupportedName name =>
    "The name \"" ++ name ++ "\" contains unsupported characters; API names should use only " ++
      "letters, numbers, and underscores"
  | underscoreNotInternal =>
    "The underscore prefix (\"_\") should only be used with definitions that are explicitly " ++
      "marked as @internal"
  | internalWithoutUnderscore =>
    "Because this definition is explicitly marked as @internal, an underscore prefix (\"_\") " ++
      "should be added to its name"

end DocTree
