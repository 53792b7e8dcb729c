import DocTree.Proofs.Comment

/-! Runs of tokens, told without reading them: a run is the longest start of the tokens that holds
texts, `@see` tags and `@link` tags only, and the links in its elements are those that its tokens
write, in their order. -/

namespace DocTree

namespace Token

/-- Whether a token can stand in a run. -/
def inRun : Token → Bool
  | text _ => true
  | tag name => name == "@see"
  | inline name _ => name == "@link"

/-- The link to a documented item that a `@link` tag writes. -/
def codeLink? : Token → Option CodeLink
  | inline name body =>
    if name == "@link" then
      match Link.parse body with
      | .ok (.code l) => some l
      | _ => none
    else none
  | _ => none

theorem inRun_inline {name : String} (h : name ≠ "@link") (body : String) :
    inRun (.inline name body) = false := by
  simpa [inRun] using h

theorem inRun_tag {name : String} (h : name ≠ "@see") : inRun (.tag name) = false := by
  simpa [inRun] using h

end Token

namespace Element

/-- The elements of the longest run at the start of tokens. -/
def runAt (tokens : List Token) : List Element := (readRun (tokens.takeWhile Token.inRun)).elements

theorem readRun_stop {t : Token} (h : t.inRun = false) (tokens : List Token) :
    readRun (t :: tokens) = { rest := t :: tokens } := by
  cases t with
  | text value => cases h
  | tag name =>
    have other : ¬(name == "@see") = true := by simpa [Token.inRun] using h
    rw [readRun, if_neg other]
  | inline name body =>
    have other : ¬(name == "@link") = true := by simpa [Token.inRun] using h
    rw [readRun, if_neg other]

/-- Reading a run reads the tokens of the run, and leaves the others as they are. -/
theorem readRun_eq (tokens : List Token) :
    readRun tokens = { readRun (tokens.takeWhile Token.inRun) with
      rest := tokens.dropWhile Token.inRun } := by
  induction tokens with
  | nil => rfl
  | cons t tokens ih =>
    by_cases h : t.inRun = true
    · rw [List.takeWhile_cons_of_pos h, List.dropWhile_cons_of_pos h]
      cases t with
      | text value => rw [readRun, readRun, ih]
      | tag name =>
        have isSee : (name == "@see") = true := h
        rw [readRun, readRun, if_pos isSee, if_pos isSee, ih]
      | inline name body =>
        have isLink : (name == "@link") = true := h
        rw [readRun, readRun, if_pos isLink, if_pos isLink, ih]
        dsimp only
        split <;> rfl
    · rw [List.takeWhile_cons_of_neg h, List.dropWhile_cons_of_neg h]
      rw [readRun_stop (by simpa using h), readRun]

theorem rest_readRun (tokens : List Token) :
    (readRun tokens).rest = tokens.dropWhile Token.inRun := by
  rw [readRun_eq]

theorem elements_readRun (tokens : List Token) : (readRun tokens).elements = runAt tokens := by
  rw [readRun_eq]
  rfl

/-- The links in the elements of a run are those that its tokens write. -/
theorem codeLinks_runAt (tokens : List Token) :
    codeLinks (runAt tokens) = (tokens.takeWhile Token.inRun).filterMap Token.codeLink? := by
  rw [← elements_readRun]
  induction tokens with
  | nil => rfl
  | cons t tokens ih =>
    by_cases h : t.inRun = true
    · rw [List.takeWhile_cons_of_pos h]
      cases t with
      | text value =>
        rw [readRun, codeLinks, List.filterMap_cons_none rfl, ih]
        rfl
      | tag name =>
        have isSee : (name == "@see") = true := h
        rw [readRun, if_pos isSee, List.filterMap_cons_none rfl, ← ih]
        simp [codeLinks, codeLinksOf]
      | inline name body =>
        have isLink : (name == "@link") = true := h
        rw [readRun, if_pos isLink]
        rcases hlink : Link.parse body with p | url | l
        · rw [List.filterMap_cons_none (by simp [Token.codeLink?, hlink])]
          exact ih
        · rw [List.filterMap_cons_none (by simp [Token.codeLink?, hlink])]
          simpa [codeLinks, codeLinksOf] using ih
        · rw [List.filterMap_cons_some (by simp [Token.codeLink?, hlink, isLink]; rfl)]
          simpa [codeLinks, codeLinksOf] using ih
    · rw [List.takeWhile_cons_of_neg h, readRun_stop (by simpa using h)]
      rfl

end Element

end DocTree
