import DocTree.Proofs.Comment.Sections
import DocTree.Proofs.Totality

/-! The queries that completing documentation puts to a lookup. A record of them can be kept beside
the state of the lookup, which changes nothing else. Each queued link is looked up once, in order,
and then each `@inheritdoc` tag whose text is a reference; after that nothing is looked up again. -/

namespace DocTree

theorem Attempt.mapState_andThen {S T : Type} {f : S → T} {next : S → Attempt S}
    (next' : T → Attempt T) (h : ∀ s, (next s).mapState f = next' (f s)) (a : Attempt S) :
    (a.andThen next).mapState f = (a.mapState f).andThen next' := by
  obtain ⟨s, _ | fault⟩ := a
  · exact h s
  · rfl

/-- A reference that was looked up, and the reply. -/
structure Query (σ : Type) where
  reference : Reference
  reply : Reply σ

/-- The lookup with a record of its queries beside its state. -/
def Lookup.recorded {σ : Type} (lookup : Lookup σ) : Lookup (σ × List (Query σ)) :=
  fun d r s =>
    let reply := lookup d r s.1
    ⟨reply.outcome, reply.events, (reply.state, s.2 ++ [⟨r, reply⟩])⟩

theorem Lookup.Answers.recorded {σ : Type} {lookup : Lookup σ} (answers : lookup.Answers) :
    lookup.recorded.Answers := fun d r s => answers d r s.1

namespace Query

variable {σ : Type}

/-- What is reported of a link, by the reply to its reference. -/
def report (q : Query σ) : List Problem :=
  match q.reply.outcome with
  | .error _ => []
  | .ok a => a.problems ++
      if a.target.map (·.releaseTag) = some .internal then [.internalTarget q.reference] else []

/-- All that is found where a link is checked. -/
def findings (location : String) (q : Query σ) : List Finding :=
  Event.findings q.reply.events ++ q.report.map fun p => ⟨p, location⟩

end Query

namespace Documentation.Completion

variable {σ : Type} {lookup : Lookup σ} {location : String}

/-- A completion without the record. -/
def unrecorded (c : Completion (σ × List (Query σ))) : Completion σ := ⟨c.doc, c.state.1, c.trace⟩

/-! ### Keeping a record changes nothing -/

section Transparent

variable (lookup location) (c : Completion (σ × List (Query σ)))

theorem resolve_recorded (r : Reference)
    {next : Option Target → Completion (σ × List (Query σ)) → Completion (σ × List (Query σ))}
    {next' : Option Target → Completion σ → Completion σ}
    (h : ∀ t b, (next t b).unrecorded = next' t b.unrecorded) :
    (c.resolve lookup.recorded location r next).mapState unrecorded =
      c.unrecorded.resolve lookup location r next' := by
  cases outcome : (lookup c.doc r c.state.1).outcome with
  | error f => simp [resolve, Lookup.recorded, unrecorded, Attempt.mapState, outcome]
  | ok a => simpa [resolve, Lookup.recorded, unrecorded, Attempt.mapState, outcome, report]
      using h a.target _

theorem checkLink_recorded (l : CodeLink) :
    (checkLink lookup.recorded location c l).mapState unrecorded =
      checkLink lookup location c.unrecorded l := by
  refine resolve_recorded lookup location c l.reference fun t b => ?_
  cases t with
  | none => rfl
  | some t =>
    dsimp only
    split <;> rfl

theorem checkLinks_recorded (links : List CodeLink) :
    (checkLinks lookup.recorded location c links).mapState unrecorded =
      checkLinks lookup location c.unrecorded links := by
  induction links generalizing c with
  | nil => rfl
  | cons l rest ih =>
    rw [checkLinks, Attempt.mapState_andThen (fun c => checkLinks lookup location c rest) ih,
      checkLink_recorded]
    rfl

theorem followInherit_recorded (text : String) :
    (followInherit lookup.recorded location c text).mapState unrecorded =
      followInherit lookup location c.unrecorded text := by
  unfold followInherit
  split
  · rfl
  · refine resolve_recorded lookup location c _ fun t b => ?_
    cases t <;> rfl

theorem followInherits_recorded (texts : List String) :
    (followInherits lookup.recorded location c texts).mapState unrecorded =
      followInherits lookup location c.unrecorded texts := by
  induction texts generalizing c with
  | nil => rfl
  | cons text rest ih =>
    rw [followInherits,
      Attempt.mapState_andThen (fun c => followInherits lookup location c rest) ih,
      followInherit_recorded]
    rfl

end Transparent

/-! ### What is recorded -/

@[simp] theorem report_nil (c : Completion σ) (location : String) : c.report location [] = c := by
  simp [report]

theorem report_report (c : Completion σ) (location : String) (first second : List Problem) :
    (c.report location first).report location second = c.report location (first ++ second) := by
  simp [report]

/-- Checking a link is one query. What is reported of it depends on the reply alone. -/
theorem state_checkLink (lookup : Lookup σ) (location : String) (c : Completion σ) (l : CodeLink) :
    (checkLink lookup location c l).state =
      let reply := lookup c.doc l.reference c.state
      report { c with state := reply.state, trace := c.trace ++ reply.events } location
        (Query.report ⟨l.reference, reply⟩) := by
  cases outcome : (lookup c.doc l.reference c.state).outcome with
  | error f => simp [checkLink, resolve, Query.report, outcome]
  | ok a =>
    rcases target : a.target with _ | t
    · simp [checkLink, resolve, Query.report, outcome, target]
    · by_cases internal : t.releaseTag = .internal
      · simp [checkLink, resolve, Query.report, outcome, target, internal, report_report]
      · simp [checkLink, resolve, Query.report, outcome, target, internal]

/-- What checking links in order comes to: the queries, of which there is one for each link up to a
failure, and what is reported. Each reply is given in a good state. -/
structure Checked (lookup : Lookup σ) (location : String) (Good : σ → Prop) (links : List CodeLink)
    (c : Completion (σ × List (Query σ))) (run : Attempt (Completion (σ × List (Query σ))))
    (queries : List (Query σ)) : Prop where
  record : run.state.state.2 = c.state.2 ++ queries
  order : queries.map (·.reference) <+: links.map (·.reference)
  all : run.failure = none → queries.map (·.reference) = links.map (·.reference)
  problems : run.state.doc.problems = c.doc.problems ++ queries.flatMap Query.report
  findings : Event.findings run.state.trace =
    Event.findings c.trace ++ queries.flatMap (Query.findings location)
  replies : ∀ q ∈ queries, ∃ d s, Good s ∧ q.reply = lookup d q.reference s
  good : Good run.state.state.1

variable {Good : σ → Prop} {c : Completion (σ × List (Query σ))}

theorem checkLink_checked (keeps : ∀ d r s, Good s → Good (lookup d r s).state)
    (good : Good c.state.1) (location : String) (d : Documentation)
    (same : d.problems = c.doc.problems) (l : CodeLink) :
    Checked lookup location Good [l] c (checkLink lookup.recorded location { c with doc := d } l)
      [⟨l.reference, lookup d l.reference c.state.1⟩] := by
  have state := state_checkLink lookup.recorded location { c with doc := d } l
  refine ⟨?_, List.prefix_rfl, fun _ => rfl, ?_, ?_, ?_, ?_⟩
  · rw [state]
    rfl
  · rw [state, List.flatMap_singleton, ← same]
    rfl
  · rw [state, List.flatMap_singleton]
    simp [report, Lookup.recorded, Query.findings, Query.report]
  · intro q hq
    obtain rfl := List.mem_singleton.1 hq
    exact ⟨d, c.state.1, good, rfl⟩
  · rw [state]
    exact keeps d l.reference c.state.1 good

namespace Checked

variable {links rest : List CodeLink} {run : Attempt (Completion (σ × List (Query σ)))}
  {queries more : List (Query σ)}

theorem nil (good : Good c.state.1) : Checked lookup location Good [] c ⟨c, none⟩ [] := by
  refine ⟨?_, List.prefix_rfl, fun _ => rfl, ?_, ?_, ?_, good⟩ <;> simp

theorem failed {f : Failure} (h : Checked lookup location Good links c run queries)
    (failure : run.failure = some f) (rest : List CodeLink) :
    Checked lookup location Good (links ++ rest) c run queries where
  record := h.record
  order := by
    rw [List.map_append]
    exact h.order.trans (List.prefix_append _ _)
  all none := by
    rw [failure] at none
    cases none
  problems := h.problems
  findings := h.findings
  replies := h.replies
  good := h.good

theorem append {middle : Completion (σ × List (Query σ))}
    (first : Checked lookup location Good links c ⟨middle, none⟩ queries)
    (second : Checked lookup location Good rest middle run more) :
    Checked lookup location Good (links ++ rest) c run (queries ++ more) where
  record := by rw [second.record, first.record, List.append_assoc]
  order := by
    rw [List.map_append, List.map_append, first.all rfl]
    exact (List.prefix_append_right_inj _).2 second.order
  all none := by rw [List.map_append, List.map_append, first.all rfl, second.all none]
  problems := by rw [second.problems, first.problems, List.flatMap_append, List.append_assoc]
  findings := by rw [second.findings, first.findings, List.flatMap_append, List.append_assoc]
  replies q hq := (List.mem_append.1 hq).elim (first.replies q) (second.replies q)
  good := second.good

end Checked

theorem checkLinks_checked (keeps : ∀ d r s, Good s → Good (lookup d r s).state)
    (good : Good c.state.1) (links : List CodeLink) :
    ∃ queries, Checked lookup location Good links c
      (checkLinks lookup.recorded location c links) queries := by
  induction links generalizing c with
  | nil => exact ⟨[], .nil good⟩
  | cons l rest ih =>
    have first := checkLink_checked keeps good location { c.doc with pendingLinks := rest } rfl l
    rw [checkLinks]
    rcases hrun : checkLink lookup.recorded location
      { c with doc := { c.doc with pendingLinks := rest } } l with ⟨middle, _ | f⟩
    · rw [hrun] at first
      obtain ⟨more, second⟩ := ih first.good
      exact ⟨_, first.append second⟩
    · rw [hrun] at first
      exact ⟨_, first.failed rfl rest⟩

theorem resolve_asked (lookup : Lookup σ) (location : String)
    (c : Completion (σ × List (Query σ))) (r : Reference)
    {next : Option Target → Completion (σ × List (Query σ)) → Completion (σ × List (Query σ))}
    (keeps : ∀ t b, (next t b).state = b.state) :
    (c.resolve lookup.recorded location r next).state.state.2.map (·.reference) =
      c.state.2.map (·.reference) ++ [r] := by
  rw [resolve]
  split
  · simp [Lookup.recorded]
  · rw [keeps]
    simp [Lookup.recorded, report]

theorem followInherit_asked (lookup : Lookup σ) (location : String)
    (c : Completion (σ × List (Query σ))) (text : String) :
    (followInherit lookup.recorded location c text).state.state.2.map (·.reference) =
      c.state.2.map (·.reference) ++ (inheritedReference text).toOption.toList := by
  rw [followInherit]
  split
  · rename_i problems h
    simp [h, report, Except.toOption]
  · rename_i r h
    rw [resolve_asked lookup location c r fun t b => by cases t <;> rfl, h]
    rfl

theorem followInherits_asked {done : Completion (σ × List (Query σ))} {texts : List String}
    (h : followInherits lookup.recorded location c texts = ⟨done, none⟩) :
    done.state.2.map (·.reference) = c.state.2.map (·.reference) ++
      texts.filterMap fun text => (inheritedReference text).toOption := by
  induction texts generalizing c with
  | nil =>
    cases h
    rw [List.filterMap_nil, List.append_nil]
  | cons text rest ih =>
    rw [followInherits] at h
    obtain ⟨middle, first, second⟩ := Attempt.andThen_eq_done h
    have asked := followInherit_asked lookup location
      { c with doc := { c.doc with pendingInherits := rest } } text
    rw [first] at asked
    rw [ih second, asked]
    cases inherited : (inheritedReference text).toOption <;> simp [inherited]

end Documentation.Completion

namespace Documentation

variable {σ : Type} {lookup : Lookup σ}

theorem complete_recorded (lookup : Lookup σ) (location : String) (d : Documentation)
    (s : σ × List (Query σ)) :
    (d.complete lookup.recorded location s).mapState Completion.unrecorded =
      d.complete lookup location s.1 := by
  have inherits (c : Completion (σ × List (Query σ))) :=
    Completion.followInherits_recorded lookup location c c.doc.pendingInherits
  rw [complete, Attempt.mapState_andThen
    (fun c => Completion.followInherits lookup location c c.doc.pendingInherits) inherits,
    Completion.checkLinks_recorded]
  rfl

/-- The references that are looked up: those of the links, and then those that are inherited. -/
theorem complete_asked {location : String} {d : Documentation} {s : σ}
    {done : Completion (σ × List (Query σ))}
    (h : d.complete lookup.recorded location (s, []) = ⟨done, none⟩) :
    done.state.2.map (·.reference) =
      d.pendingLinks.map (·.reference) ++ d.pendingReferences := by
  rw [complete] at h
  obtain ⟨middle, links, inherits⟩ := Attempt.andThen_eq_done h
  obtain ⟨queries, checked⟩ : ∃ queries, Completion.Checked lookup location (fun _ => True)
      d.pendingLinks { doc := d, state := (s, []) }
      (Completion.checkLinks lookup.recorded location { doc := d, state := (s, []) }
        d.pendingLinks) queries :=
    Completion.checkLinks_checked (fun _ _ _ => id) trivial _
  rw [links] at checked
  have rest : middle.doc.pendingInherits = d.pendingInherits :=
    congrArg Prod.snd (Completion.queues_checkLinks rfl links)
  have record : middle.state.2 = queries := checked.record
  rw [Completion.followInherits_asked inherits, record, checked.all rfl, rest]
  rfl

/-- Nothing is done where nothing is queued. -/
theorem complete_of_empty {d : Documentation} (h : d.queues = ([], [])) (lookup : Lookup σ)
    (location : String) (s : σ) :
    d.complete lookup location s = ⟨{ doc := d, state := s }, none⟩ := by
  obtain ⟨links, inherits⟩ := Prod.mk.inj h
  rw [complete, links, Completion.checkLinks, Attempt.andThen_done]
  dsimp only
  rw [inherits, Completion.followInherits]

/-- The links that a comment writes are queued in order, but for those in the run of an
`@internalremarks` tag, and so are its `@inheritdoc` tags. All links in the content are among them.
If every reference has an answer, completing the documentation looks each of them up once, in
order, and nothing is left to be done afterwards, whatever the lookup. -/
theorem queued_once (comment : String) :
    let tokens := (Token.ofComment comment).tokens
    let d := ofComment comment
    d.pendingLinks = (Place.all tokens).filterMap Place.link? ∧
      d.pendingInherits = tokens.filterMap Token.inherited? ∧
      (∀ l ∈ d.codeLinks, l ∈ d.pendingLinks) ∧
      ∀ {σ : Type} (lookup : Lookup σ), lookup.Answers → ∀ (location : String) (s : σ),
        ∃ done : Completion (σ × List (Query σ)),
          d.complete lookup.recorded location (s, []) = ⟨done, none⟩ ∧
          d.complete lookup location s = ⟨done.unrecorded, none⟩ ∧
          done.state.2.map (·.reference) =
            d.pendingLinks.map (·.reference) ++ d.pendingReferences ∧
          done.doc.pendingLinks = [] ∧ done.doc.pendingInherits = [] ∧
          ∀ {τ : Type} (later : Lookup τ) (place : String) (t : τ),
            done.doc.complete later place t = ⟨{ doc := done.doc, state := t }, none⟩ := by
  intro tokens d
  have links : d.pendingLinks = (Place.all tokens).filterMap Place.link? :=
    (congrArg Outline.links (outline_ofComment comment)).trans (Outline.links_foldl _ _)
  refine ⟨links, pendingInherits_ofComment comment, (ofComment_wellRead comment).queued, ?_⟩
  intro σ lookup answers location s
  have done := Attempt.eq_done (complete_total answers.recorded location d (s, []))
  have plain := complete_recorded lookup location d (s, [])
  rw [done] at plain
  obtain ⟨noLinks, noInherits⟩ := Prod.mk.inj (queues_complete done)
  refine ⟨_, done, plain.symm, complete_asked done, noLinks, noInherits, ?_⟩
  intro τ later place t
  exact complete_of_empty (queues_complete done) later place t

/-- The link of the internal remarks is not looked up; the one that is out of place is. -/
theorem queued_once_hidden :
    let comment :=
      "\x7b@link A\x7d @internalremarks \x7b@link B\x7d @beta \x7b@link C\x7d\x7b@inheritdoc D\x7d"
    let lookup := Lookup.ofTable fun _ => .ok none
    lookup.Answers ∧ ∃ done : Completion (List Reference × List (Query (List Reference))),
      (ofComment comment).complete lookup.recorded "p" ([], []) = ⟨done, none⟩ ∧
      done.state.2.map (·.reference) =
        [⟨"", "", "A", ""⟩, ⟨"", "", "C", ""⟩, ⟨"", "", "D", ""⟩] := by
  intro comment lookup
  have answers : lookup.Answers := fun d r s => ⟨_, rfl⟩
  have tokens : (Token.ofComment comment).tokens = [.inline "@link" "A", .tag "@internalremarks",
      .inline "@link" "B", .tag "@beta", .inline "@link" "C", .inline "@inheritdoc" "D"] := by
    unfold comment
    cbv
  obtain ⟨links, inherits, -, completed⟩ := queued_once comment
  obtain ⟨done, hdone, -, asked, -⟩ := completed lookup answers "p" []
  rw [tokens] at links inherits
  refine ⟨answers, done, hdone, asked.trans ?_⟩
  rw [pendingReferences, links, inherits]
  decide +kernel

end Documentation

end DocTree
