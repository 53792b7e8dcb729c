import DocTree.Proofs.Walk.Run
import DocTree.Documentation.Completion

/-! What completing the documentation of an item comes to, told without a lookup that keeps a state:
the problems of its links, and the documentation that follows from its `@inheritdoc` tags, as
functions of the answers to its references. -/

namespace DocTree

namespace Event

@[simp] theorem findings_nil : findings [] = [] := rfl

@[simp] theorem findings_append (first second : List Event) :
    findings (first ++ second) = findings first ++ findings second :=
  List.filterMap_append

@[simp] theorem findings_found (location : String) (problems : List Problem) :
    findings (problems.map fun p => .found ⟨p, location⟩) =
      problems.map fun p => ⟨p, location⟩ := by
  induction problems with
  | nil => rfl
  | cons p rest ih => exact congrArg (_ :: ·) ih

end Event

/-- A target but for its number: what can be copied from it or held against it. -/
def Target.face (t : Target) : Target := { t with item := none }

namespace Answer

/-- Two answers that are the same to a link. -/
def SameToLink (a b : Answer) : Prop :=
  a.problems = b.problems ∧ a.target.map (·.releaseTag) = b.target.map (·.releaseTag)

/-- Two answers that are the same to whoever inherits from them. -/
def SameToHeir (a b : Answer) : Prop :=
  a.problems = b.problems ∧ a.target.map Target.face = b.target.map Target.face

theorem SameToHeir.sameToLink {a b : Answer} (h : a.SameToHeir b) : a.SameToLink b := by
  refine ⟨h.1, ?_⟩
  have tags := congrArg (Option.map (·.releaseTag)) h.2
  rw [Option.map_map, Option.map_map] at tags
  exact tags

end Answer

namespace Documentation

/-- The parts of documentation that completing it leaves alone and that other items read. -/
def marks (d : Documentation) : ReleaseTag × List Element := (d.releaseTag, d.deprecated)

/-- The problems of a link, given the answers to references. -/
def linkProblems (ask : Reference → Answer) (l : CodeLink) : List Problem :=
  (ask l.reference).problems ++
    if (ask l.reference).target.map (·.releaseTag) = some .internal
    then [.internalTarget l.reference] else []

/-- What one `@inheritdoc` tag makes of documentation, and its problems. -/
def follow (ask : Reference → Answer) (d : Documentation) (text : String) :
    Documentation × List Problem :=
  match inheritedReference text with
  | .error problems => (d, problems)
  | .ok r =>
    match (ask r).target with
    | none => (d.inheritMissing text, (ask r).problems)
    | some t => (d.inherit t, (ask r).problems ++ d.inheritProblems t)

/-- What `@inheritdoc` tags make of documentation, one after another, and their problems. -/
def followAll (ask : Reference → Answer) (d : Documentation) :
    List String → Documentation × List Problem
  | [] => (d, [])
  | text :: rest =>
    let first := follow ask d text
    let second := followAll ask first.1 rest
    (second.1, first.2 ++ second.2)

/-- The problems that completing documentation finds. -/
def completionProblems (ask : Reference → Answer) (d : Documentation) : List Problem :=
  d.pendingLinks.flatMap (linkProblems ask) ++ (followAll ask d d.pendingInherits).2

/-- Documentation once it is complete. -/
def completed (ask : Reference → Answer) (d : Documentation) : Documentation :=
  { (followAll ask d d.pendingInherits).1 with
    pendingLinks := []
    pendingInherits := []
    problems := d.problems ++ completionProblems ask d }

/-! ### The parts of documentation that following a tag leaves alone -/

section Follow

variable (ask : Reference → Answer)

theorem marks_follow (d : Documentation) (text : String) :
    (follow ask d text).1.marks = d.marks := by
  unfold follow
  split
  · rfl
  · split <;> rfl

theorem marks_followAll (d : Documentation) (texts : List String) :
    (followAll ask d texts).1.marks = d.marks := by
  induction texts generalizing d with
  | nil => rfl
  | cons text rest ih => rw [followAll, ih, marks_follow]

@[simp] theorem marks_completed (d : Documentation) : (d.completed ask).marks = d.marks :=
  marks_followAll ask d d.pendingInherits

/-- Following a tag neither reads nor changes the queue of tags and the problems so far. -/
theorem follow_queue (d : Documentation) (queue : List String) (problems : List Problem)
    (text : String) :
    follow ask { d with pendingInherits := queue, problems } text =
      ({ (follow ask d text).1 with pendingInherits := queue, problems },
        (follow ask d text).2) := by
  unfold follow
  split
  · rfl
  · split <;> rfl

theorem followAll_queue (d : Documentation) (queue : List String) (problems : List Problem)
    (texts : List String) :
    followAll ask { d with pendingInherits := queue, problems } texts =
      ({ (followAll ask d texts).1 with pendingInherits := queue, problems },
        (followAll ask d texts).2) := by
  induction texts generalizing d with
  | nil => rfl
  | cons text rest ih => simp only [followAll, follow_queue, ih]

/-- Nor does it read or change the queue of links. -/
theorem follow_links (d : Documentation) (links : List CodeLink) (text : String) :
    follow ask { d with pendingLinks := links } text =
      ({ (follow ask d text).1 with pendingLinks := links }, (follow ask d text).2) := by
  unfold follow
  split
  · rfl
  · split <;> rfl

theorem followAll_links (d : Documentation) (links : List CodeLink) (texts : List String) :
    followAll ask { d with pendingLinks := links } texts =
      ({ (followAll ask d texts).1 with pendingLinks := links }, (followAll ask d texts).2) := by
  induction texts generalizing d with
  | nil => rfl
  | cons text rest ih => simp only [followAll, follow_links, ih]

end Follow

/-! ### Answers that are the same -/

theorem linkProblems_congr {ask ask' : Reference → Answer} {l : CodeLink}
    (h : (ask l.reference).SameToLink (ask' l.reference)) :
    linkProblems ask l = linkProblems ask' l := by
  rw [linkProblems, linkProblems, h.1, h.2]

theorem inherit_face (d : Documentation) (t : Target) : d.inherit t.face = d.inherit t := rfl

theorem inheritProblems_face (d : Documentation) (t : Target) :
    d.inheritProblems t.face = d.inheritProblems t := rfl

theorem follow_congr {ask ask' : Reference → Answer} {text : String}
    (h : ∀ r, inheritedReference text = .ok r → (ask r).SameToHeir (ask' r)) (d : Documentation) :
    follow ask d text = follow ask' d text := by
  unfold follow
  split
  · rfl
  · rename_i r hr
    obtain ⟨problems, target⟩ := h r hr
    cases ha : (ask r).target with
    | none =>
      rw [ha] at target
      have hb : (ask' r).target = none := Option.map_eq_none_iff.1 target.symm
      simp only [hb, problems]
    | some t =>
      rw [ha] at target
      obtain ⟨u, hu, face⟩ := Option.map_eq_some_iff.1 target.symm
      simp only [hu, problems]
      rw [← inherit_face d t, ← inheritProblems_face d t, ← face, inherit_face,
        inheritProblems_face]

theorem followAll_congr {ask ask' : Reference → Answer} {texts : List String}
    (h : ∀ text ∈ texts, ∀ r, inheritedReference text = .ok r → (ask r).SameToHeir (ask' r))
    (d : Documentation) : followAll ask d texts = followAll ask' d texts := by
  induction texts generalizing d with
  | nil => rfl
  | cons text rest ih =>
    rw [List.forall_mem_cons] at h
    simp only [followAll, follow_congr h.1 d, ih h.2]

/-- Completing documentation depends on the answers only as far as its links and tags ask for
them. -/
theorem completed_congr {ask ask' : Reference → Answer} {d : Documentation}
    (links : ∀ l ∈ d.pendingLinks, (ask l.reference).SameToLink (ask' l.reference))
    (inherits : ∀ text ∈ d.pendingInherits, ∀ r, inheritedReference text = .ok r →
      (ask r).SameToHeir (ask' r)) :
    d.completed ask = d.completed ask' ∧
      d.completionProblems ask = d.completionProblems ask' := by
  have follows := followAll_congr inherits d
  have problems : d.completionProblems ask = d.completionProblems ask' := by
    rw [completionProblems, completionProblems, follows]
    congr 1
    exact List.flatMap_congr fun l hl => linkProblems_congr (links l hl)
  refine ⟨?_, problems⟩
  rw [completed, completed, problems, follows]

end Documentation

/-- A lookup tells something of a reference: while its state is good it stays so, it reports nothing
by itself, and its answer, if it has one, is as `Told` says. -/
structure Lookup.Tells {σ : Type} (lookup : Lookup σ) (Good : σ → Prop) (d : Documentation)
    (r : Reference) (Told : Answer → Prop) : Prop where
  good : ∀ s, Good s → Good (lookup d r s).state
  silent : ∀ s, Good s → Event.findings (lookup d r s).events = []
  told : ∀ s a, Good s → (lookup d r s).outcome = .ok a → Told a

namespace Documentation.Completion

variable {σ : Type} {lookup : Lookup σ} {Good : σ → Prop} {location : String}
  {c b done : Completion σ} {d : Documentation} {problems : List Problem}
  {Answered : Reference → Prop}

/-- The completion `c` comes to `b`: the documentation is now `d`, to which the problems are added,
and these are reported. -/
structure ComesTo (Good : σ → Prop) (location : String) (c b : Completion σ) (d : Documentation)
    (problems : List Problem) : Prop where
  doc : b.doc = { d with problems := c.doc.problems ++ problems }
  findings : Event.findings b.trace =
    Event.findings c.trace ++ problems.map (⟨·, location⟩)
  good : Good b.state

theorem ComesTo.refl (good : Good b.state) (doc : b.doc = c.doc)
    (findings : Event.findings b.trace = Event.findings c.trace) :
    ComesTo Good location c b c.doc [] :=
  ⟨by rw [doc, List.append_nil], by rw [findings, List.map_nil, List.append_nil], good⟩

theorem ComesTo.report (h : ComesTo Good location c b d problems) (more : List Problem) :
    ComesTo Good location c (b.report location more) d (problems ++ more) := by
  refine ⟨?_, ?_, h.good⟩
  · rw [Completion.report, h.doc]
    simp
  · rw [Completion.report, Event.findings_append, h.findings, Event.findings_found]
    simp

/-- Resolving a reference that the lookup tells of goes on with what is told. -/
theorem resolve_eq_done {r : Reference} {Told : Answer → Prop}
    {next : Option Target → Completion σ → Completion σ} (good : Good c.state)
    (tells : lookup.Tells Good c.doc r Told)
    (h : c.resolve lookup location r next = ⟨done, none⟩) :
    ∃ a b, Told a ∧ ComesTo Good location c b c.doc a.problems ∧ done = next a.target b := by
  rw [resolve] at h
  split at h
  · simp at h
  · rename_i a ha
    cases h
    refine ⟨a, _, tells.told c.state a good ha, ?_, rfl⟩
    have asked : ComesTo Good location c
        { c with
          state := (lookup c.doc r c.state).state
          trace := c.trace ++ (lookup c.doc r c.state).events } c.doc [] := by
      refine .refl (tells.good c.state good) rfl ?_
      rw [Event.findings_append, tells.silent c.state good, List.append_nil]
    exact asked.report a.problems

theorem checkLink_eq_done (ask : Reference → Answer) {l : CodeLink} (good : Good c.state)
    (tells : lookup.Tells Good c.doc l.reference fun a =>
      a.SameToLink (ask l.reference) ∧ Answered l.reference)
    (h : checkLink lookup location c l = ⟨done, none⟩) :
    ComesTo Good location c done c.doc (linkProblems ask l) ∧ Answered l.reference := by
  rw [checkLink] at h
  obtain ⟨a, b, ⟨told, answered⟩, comes, rfl⟩ := resolve_eq_done good tells h
  refine ⟨?_, answered⟩
  rw [linkProblems, ← told.1, ← told.2]
  cases a.target with
  | none => simpa using comes
  | some t =>
    by_cases internal : t.releaseTag = .internal
    · simpa [internal] using comes.report [.internalTarget l.reference]
    · simpa [internal] using comes

/-- Where the lookup tells of the links, checking them finds their problems. -/
theorem checkLinks_eq_done (ask : Reference → Answer) {links : List CodeLink} (good : Good c.state)
    (queue : c.doc.pendingLinks = links)
    (tells : ∀ l ∈ links, ∀ d : Documentation, d.marks = c.doc.marks →
      lookup.Tells Good d l.reference fun a =>
        a.SameToLink (ask l.reference) ∧ Answered l.reference)
    (h : checkLinks lookup location c links = ⟨done, none⟩) :
    ComesTo Good location c done { c.doc with pendingLinks := [] }
      (links.flatMap (linkProblems ask)) ∧ ∀ l ∈ links, Answered l.reference := by
  induction links generalizing c with
  | nil =>
    rw [checkLinks] at h
    cases h
    refine ⟨⟨?_, by simp, good⟩, by simp⟩
    rw [List.flatMap_nil, List.append_nil, ← queue]
  | cons l rest ih =>
    rw [checkLinks] at h
    obtain ⟨middle, hl, hrest⟩ := Attempt.andThen_eq_done h
    obtain ⟨first, answered⟩ := checkLink_eq_done ask
      (c := { c with doc := { c.doc with pendingLinks := rest } }) good
      (tells l List.mem_cons_self _ rfl) hl
    have tag : middle.doc.marks = c.doc.marks := by
      rw [first.doc]
      rfl
    obtain ⟨second, others⟩ := ih first.good (by rw [first.doc])
      (fun l hl d hd => tells l (List.mem_cons_of_mem _ hl) d (hd.trans tag)) hrest
    refine ⟨⟨?_, ?_, second.good⟩, List.forall_mem_cons.2 ⟨answered, others⟩⟩
    · rw [second.doc, first.doc]
      simp
    · rw [second.findings, first.findings]
      simp

theorem followInherit_eq_done (ask : Reference → Answer) {text : String} (good : Good c.state)
    (tells : ∀ r, inheritedReference text = .ok r →
      lookup.Tells Good c.doc r fun a => a.SameToHeir (ask r) ∧ Answered r)
    (h : followInherit lookup location c text = ⟨done, none⟩) :
    ComesTo Good location c done (follow ask c.doc text).1 (follow ask c.doc text).2 ∧
      ∀ r, inheritedReference text = .ok r → Answered r := by
  rw [followInherit] at h
  split at h
  · rename_i problems hp
    cases h
    simp only [follow, hp]
    exact ⟨(ComesTo.refl good rfl rfl).report problems, by simp⟩
  · rename_i r hr
    obtain ⟨a, b, ⟨⟨problems, target⟩, answered⟩, comes, rfl⟩ :=
      resolve_eq_done good (tells r hr) h
    refine ⟨?_, fun q hq => Except.ok.inj (hr.symm.trans hq) ▸ answered⟩
    simp only [follow, hr]
    cases hb : (ask r).target with
    | none =>
      rw [hb] at target
      rw [Option.map_eq_none_iff.1 target, ← problems]
      refine ⟨?_, comes.findings, comes.good⟩
      simp only [comes.doc, inheritMissing]
    | some t =>
      rw [hb] at target
      obtain ⟨u, hu, face⟩ := Option.map_eq_some_iff.1 target
      rw [hu, ← problems]
      have inherits : b.doc.inherit u =
          { c.doc.inherit t with problems := c.doc.problems ++ a.problems } := by
        rw [comes.doc, ← inherit_face, face]
        rfl
      have found : b.doc.inheritProblems u = c.doc.inheritProblems t := by
        rw [comes.doc, ← inheritProblems_face, face]
        rfl
      have turned : ComesTo Good location c { b with doc := b.doc.inherit u } (c.doc.inherit t)
          a.problems := ⟨inherits, comes.findings, comes.good⟩
      simp only [found]
      exact turned.report (c.doc.inheritProblems t)

/-- Where the lookup tells of the references in `@inheritdoc` tags, following these does what
following them by the answers does. -/
theorem followInherits_eq_done (ask : Reference → Answer) {texts : List String}
    (good : Good c.state) (queue : c.doc.pendingInherits = texts)
    (tells : ∀ text ∈ texts, ∀ r, inheritedReference text = .ok r → ∀ d : Documentation,
      d.marks = c.doc.marks →
        lookup.Tells Good d r fun a => a.SameToHeir (ask r) ∧ Answered r)
    (h : followInherits lookup location c texts = ⟨done, none⟩) :
    ComesTo Good location c done { (followAll ask c.doc texts).1 with pendingInherits := [] }
        (followAll ask c.doc texts).2 ∧
      ∀ text ∈ texts, ∀ r, inheritedReference text = .ok r → Answered r := by
  induction texts generalizing c with
  | nil =>
    rw [followInherits] at h
    cases h
    refine ⟨⟨?_, by simp [followAll], good⟩, by simp⟩
    simp only [followAll, List.append_nil]
    rw [← queue]
  | cons text rest ih =>
    rw [followInherits] at h
    obtain ⟨middle, htext, hrest⟩ := Attempt.andThen_eq_done h
    obtain ⟨first, answered⟩ := followInherit_eq_done ask
      (c := { c with doc := { c.doc with pendingInherits := rest } }) good
      (fun r hr => tells text List.mem_cons_self r hr _ rfl) htext
    have queued : follow ask { c.doc with pendingInherits := rest } text =
        ({ (follow ask c.doc text).1 with pendingInherits := rest, problems := c.doc.problems },
          (follow ask c.doc text).2) :=
      follow_queue ask c.doc rest c.doc.problems text
    have doc : middle.doc = { (follow ask c.doc text).1 with
        pendingInherits := rest
        problems := c.doc.problems ++ (follow ask c.doc text).2 } := by
      rw [first.doc, queued]
    have tag : middle.doc.marks = c.doc.marks := by
      rw [doc]
      exact marks_follow ask c.doc text
    obtain ⟨second, others⟩ := ih first.good (by rw [doc])
      (fun t ht r hr d hd => tells t (List.mem_cons_of_mem _ ht) r hr d (hd.trans tag)) hrest
    have onward : followAll ask middle.doc rest =
        ({ (followAll ask (follow ask c.doc text).1 rest).1 with
            pendingInherits := rest
            problems := c.doc.problems ++ (follow ask c.doc text).2 },
          (followAll ask (follow ask c.doc text).1 rest).2) := by
      rw [doc, followAll_queue]
    have found : (follow ask { c.doc with pendingInherits := rest } text).2 =
        (follow ask c.doc text).2 := by
      rw [queued]
    refine ⟨⟨?_, ?_, second.good⟩, List.forall_mem_cons.2 ⟨answered, others⟩⟩
    · rw [second.doc, onward, doc]
      simp [followAll]
    · rw [second.findings, onward, first.findings, found]
      simp [followAll]

end Documentation.Completion

namespace Documentation

/-- Where the lookup tells of all that documentation refers to, completing it gives the completed
documentation and reports its problems. All that was referred to was answered then. -/
theorem complete_eq_done {σ : Type} {lookup : Lookup σ} {Good : σ → Prop}
    (ask : Reference → Answer) (Answered : Reference → Prop) {location : String}
    {d : Documentation} {state : σ} {done : Completion σ} (good : Good state)
    (links : ∀ l ∈ d.pendingLinks, ∀ e : Documentation, e.marks = d.marks →
      lookup.Tells Good e l.reference fun a =>
        a.SameToLink (ask l.reference) ∧ Answered l.reference)
    (inherits : ∀ text ∈ d.pendingInherits, ∀ r, inheritedReference text = .ok r →
      ∀ e : Documentation, e.marks = d.marks →
        lookup.Tells Good e r fun a => a.SameToHeir (ask r) ∧ Answered r)
    (h : d.complete lookup location state = ⟨done, none⟩) :
    done.doc = d.completed ask ∧
    Event.findings done.trace = (d.completionProblems ask).map (⟨·, location⟩) ∧
    Good done.state ∧ (∀ l ∈ d.pendingLinks, Answered l.reference) ∧
    ∀ text ∈ d.pendingInherits, ∀ r, inheritedReference text = .ok r → Answered r := by
  rw [complete] at h
  obtain ⟨checked, hlinks, hinherits⟩ := Attempt.andThen_eq_done h
  obtain ⟨first, linksAnswered⟩ := Completion.checkLinks_eq_done ask good rfl links hlinks
  have queue : checked.doc.pendingInherits = d.pendingInherits := by rw [first.doc]
  have tag : checked.doc.marks = d.marks := by
    rw [first.doc]
    rfl
  rw [queue] at hinherits
  obtain ⟨second, inheritsAnswered⟩ := Completion.followInherits_eq_done ask first.good queue
    (fun t ht r hr e he => inherits t ht r hr e (he.trans tag)) hinherits
  have onward : followAll ask checked.doc d.pendingInherits =
      ({ (followAll ask d d.pendingInherits).1 with
          pendingLinks := []
          pendingInherits := d.pendingInherits
          problems := d.problems ++ d.pendingLinks.flatMap (linkProblems ask) },
        (followAll ask d d.pendingInherits).2) := by
    have links := followAll_links ask d [] d.pendingInherits
    have queue := followAll_queue ask { d with pendingLinks := [] } d.pendingInherits
      (d.problems ++ d.pendingLinks.flatMap (linkProblems ask)) d.pendingInherits
    rw [links] at queue
    rw [first.doc]
    exact queue
  refine ⟨?_, ?_, second.good, linksAnswered, inheritsAnswered⟩
  · rw [second.doc, onward, first.doc]
    simp [completed, completionProblems]
  · rw [second.findings, onward, first.findings]
    simp [completionProblems]

/-! ### What completing leaves alone, whatever the lookup -/

section Marks

variable {σ : Type} (lookup : Lookup σ) (location : String)

theorem marks_resolve (c : Completion σ) (r : Reference)
    {next : Option Target → Completion σ → Completion σ}
    (hnext : ∀ t c, (next t c).doc.marks = c.doc.marks) :
    (c.resolve lookup location r next).state.doc.marks = c.doc.marks := by
  rw [Completion.resolve]
  split
  · rfl
  · exact hnext _ _

theorem marks_checkLink (c : Completion σ) (l : CodeLink) :
    (Completion.checkLink lookup location c l).state.doc.marks = c.doc.marks := by
  refine marks_resolve lookup location c l.reference fun t c => ?_
  cases t with
  | none => rfl
  | some t =>
    dsimp only
    split <;> rfl

theorem marks_checkLinks (c : Completion σ) (links : List CodeLink) :
    (Completion.checkLinks lookup location c links).state.doc.marks = c.doc.marks := by
  induction links generalizing c with
  | nil => rfl
  | cons l rest ih =>
    refine Attempt.andThen_keeps (P := fun b => b.doc.marks = c.doc.marks) ?_ fun b hb =>
      (ih b).trans hb
    exact marks_checkLink lookup location { c with doc := { c.doc with pendingLinks := rest } } l

theorem marks_followInherit (c : Completion σ) (text : String) :
    (Completion.followInherit lookup location c text).state.doc.marks = c.doc.marks := by
  rw [Completion.followInherit]
  split
  · rfl
  · refine marks_resolve lookup location c _ fun t c => ?_
    cases t <;> rfl

theorem marks_followInherits (c : Completion σ) (texts : List String) :
    (Completion.followInherits lookup location c texts).state.doc.marks = c.doc.marks := by
  induction texts generalizing c with
  | nil => rfl
  | cons text rest ih =>
    refine Attempt.andThen_keeps (P := fun b => b.doc.marks = c.doc.marks) ?_ fun b hb =>
      (ih b).trans hb
    exact marks_followInherit lookup location
      { c with doc := { c.doc with pendingInherits := rest } } text

/-- Release tag and deprecation message stay what they were read as. -/
theorem marks_complete (d : Documentation) (state : σ) :
    (d.complete lookup location state).state.doc.marks = d.marks := by
  refine Attempt.andThen_keeps (P := fun b => b.doc.marks = d.marks) ?_ fun b hb =>
    (marks_followInherits lookup location b _).trans hb
  exact marks_checkLinks lookup location _ _

end Marks

end Documentation

end DocTree
