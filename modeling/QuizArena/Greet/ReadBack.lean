import QuizArena.Greet.Linearizable

/-!
# What is stored can be read back

Every row that a run commits is keyed by an accepted name and holds a count that a
greeting can have, so a lookup never fails over the rules of the domain. A lookup returns
the greeting that the last call to land wrote, and a call that updates a row reports a
returning sender, because rows do not go away again.
-/

namespace QuizArena.Greet

open Lib Kernel

variable {ι : Type} [DecidableEq ι] {tables : UnicodeTables} {uniqueViolation : DbErr → Bool}
  {inputs : ι → String} {table : String → Option Int64}

/-- What a run of calls over a table that is empty at first stores and reads. -/
structure ReadsBack {store : Store ι String Int64} (tables : UnicodeTables) (inputs : ι → String)
    (labels : List (Label ι)) (s : SystemState store) : Prop where
  rows : ∀ name count, s.committed name = some count →
    (∃ sender, SenderName.new tables name = .ok sender ∧ sender.asStr = name) ∧
    1 ≤ name.length ∧ name.length ≤ maxLength ∧ 1 ≤ count.toInt ∧ count.toInt ≤ maxCount
  /-- No lookup fails over a row that breaks the rules of the domain. -/
  readable : ∀ sender : SenderName tables, ∃ found,
    rehydrateRow tables (rowOf sender.asStr (s.committed sender.asStr)) = .ok found
  finds : ∀ label ∈ labels, ∀ name row, label.event = ⟨.statement (.find name), .ok row⟩ →
    ∃ found, rehydrateRow tables row = .ok found
  writes : ∀ label ∈ labels, ∀ kind model,
    label.event = ⟨.statement (.write kind model), .ok ()⟩ →
    ∃ greeting : Greeting tables, greeting.sender.asStr = inputs label.process ∧
      model = greeting.toModel
  /-- A lookup returns what was last written, and landed. -/
  lastWritten : ∀ before write middle land middle' find after kind,
    ∀ (greeting : Greeting tables) (row : Option Model),
    labels = before ++ write :: (middle ++ land :: (middle' ++ find :: after)) →
    write.event = ⟨.statement (.write kind greeting.toModel), .ok ()⟩ →
    (∀ label ∈ middle, label.process ≠ write.process) →
    land.process = write.process → land.action = .lands →
    (∀ label ∈ middle', label.action = .lands → inputs label.process ≠ greeting.sender.asStr) →
    find.event = ⟨.statement (.find greeting.sender.asStr), .ok row⟩ →
    rehydrateRow tables row = .ok (some greeting)
  updates : ∀ label ∈ labels, ∀ model,
    label.event = ⟨.statement (.write .update model), .ok ()⟩ →
    ∀ name returning, s.HasOutcome label.process (.ok (.recorded name returning)) →
    returning = true

/-! ## Lookups and writes -/

/-- Only at one point a call looks something up, and there it asks for its sender. -/
theorem ControlStep.of_find {sender : SenderName tables} {control control' : Control tables}
    {event : Event (Tx Greetings)} {name : String}
    (h : ControlStep uniqueViolation sender control event control')
    (hevent : event.1 = .statement (.find name)) : ∃ retries, control = .finds retries := by
  cases h with
  | findFails retries | unreadable retries | finds retries => exact ⟨retries, rfl⟩
  | beginFails | begins | commitFails | commits | rollsBack => cases hevent
  | writeFails | writes => cases hevent

/-- What a lookup returns is the row that is committed. -/
theorem Moves.finds {input name : String} {row : Option Int64}
    {t t' : SystemState (validated : Store ι String Int64)} {label : Label ι}
    {sender : SenderName tables} {control control' : Control tables}
    (h : Moves uniqueViolation input t label t' sender control control')
    (haction : label.action = .finds name row) : row = t.committed name := by
  have hevent : label.event.1 = .statement (.find name) := by
    have hanswers := h.answers
    rw [haction] at hanswers
    generalize label.event = event at hanswers
    cases hanswers
    rfl
  obtain ⟨retries, rfl⟩ := h.step.of_find hevent
  have hfits := h.fits
  have hstore := h.store
  rw [haction] at hstore
  generalize t'.store = state at hstore
  generalize hview : t.store.views label.process = view at hfits
  cases hfits
  cases hstore with
  | finds _ _ hopen hrow =>
    rw [hview] at hopen
    cases hopen
    exact hrow rfl

/-- A write of a call: it is of a greeting of its sender, becomes the row that is pending,
    and updates only a row the call has been told of. -/
structure Wrote (tables : UnicodeTables) (input : String) (i : ι)
    (t t' : SystemState (validated : Store ι String Int64)) (kind : WriteKind) (model : Model) :
    Prop where
  greeting : ∃ greeting : Greeting tables, greeting.sender.asStr = input ∧ model = greeting.toModel
  pending : ∃ view, t'.store.views i = some view ∧
    view.pending = Function.update (fun _ => none) input (some model.timesGreeted)
  seen : kind = .update → ∃ view count, t.store.views i = some view ∧
    view.seen input = some (some count)

theorem ControlStep.of_write {sender : SenderName tables} {control control' : Control tables}
    {event : Event (Tx Greetings)} {kind : WriteKind} {model : Model}
    (h : ControlStep uniqueViolation sender control event control')
    (hevent : event = ⟨.statement (.write kind model), .ok ()⟩) :
    ∃ retries found, control = .writes retries found ∧
      control' = .commits retries (nextGreeting sender found) ∧ kind = writeKind found ∧
      model = (nextGreeting sender found).toModel := by
  cases h with
  | beginFails | begins | findFails | unreadable | finds | commitFails | commits | rollsBack =>
    cases congrArg Sigma.fst hevent
  | writeFails => cases hevent
  | writes retries found =>
    cases hevent
    exact ⟨retries, found, rfl, rfl, rfl, rfl⟩

/-- What a call that is about to commit has written. -/
theorem Fits.pending {sender : SenderName tables} {retries : Nat} {greeting : Greeting tables}
    {left : Option (View String Int64)} (h : Fits sender (.commits retries greeting) left) :
    ∃ view, left = some view ∧ view.pending = Function.update (fun _ => none) sender.asStr
      (some (i64From greeting.timesGreeted)) := by
  cases h with
  | commits _ _ _ _ hpending => exact ⟨_, rfl, hpending⟩

theorem Moves.writes {input : String} {kind : WriteKind} {model : Model}
    {t t' : SystemState (validated : Store ι String Int64)} {label : Label ι}
    {sender : SenderName tables} {control control' : Control tables}
    (h : Moves uniqueViolation input t label t' sender control control')
    (hevent : label.event = ⟨.statement (.write kind model), .ok ()⟩) :
    Wrote tables input label.process t t' kind model := by
  obtain ⟨retries, found, rfl, rfl, rfl, rfl⟩ := h.step.of_write hevent
  have hinput := SenderName.asStr_of_new h.named
  have hbefore := h.fits
  have hafter := h.fits.step h.step h.answers h.store
  generalize hview : t.store.views label.process = view at hbefore
  cases hbefore with
  | @writes row _ _ hrow =>
    obtain ⟨view', hview', hpending⟩ := hafter.pending
    refine ⟨⟨_, ?_, rfl⟩, ⟨view', hview', ?_⟩, ?_⟩
    · rw [sender_nextGreeting hrow, hinput]
    · rw [hpending, hinput]
      rfl
    · intro hkind
      have hsome : row ≠ none := by
        intro hnone
        rw [(rehydrateRow_none_iff hrow).mpr (rowOf_eq_none.mpr hnone)] at hkind
        cases hkind
      obtain ⟨count, rfl⟩ := Option.ne_none_iff_exists'.mp hsome
      refine ⟨_, count, hview, ?_⟩
      rw [← hinput]
      exact Function.update_self ..

/-! ## The rows -/

/-- Of the rows: they are keyed by accepted names, and those a transaction knows of are
    still there. -/
structure Kept (tables : UnicodeTables) (t : SystemState (validated : Store ι String Int64)) :
    Prop where
  named : ∀ name, t.committed name ≠ none → ∃ sender, SenderName.new tables name = .ok sender
  seen : ∀ i view name count, t.store.views i = some view → view.seen name = some (some count) →
    t.committed name ≠ none

/-- A row does not go away. -/
theorem CallStep.present {t t' : SystemState (validated : Store ι String Int64)}
    {label : Label ι} (h : CallStep tables uniqueViolation inputs t label t') {name : String}
    (hname : t.committed name ≠ none) : t'.committed name ≠ none := by
  by_cases haction : label.action = .lands
  · obtain ⟨sender, found, hlanding⟩ := h.lands haction
    rw [hlanding.committed]
    by_cases heq : name = inputs label.process
    · rw [heq, Function.update_self]
      exact Option.some_ne_none _
    · rw [Function.update_of_ne heq]
      exact hname
  · rw [(h.stays haction).1]
    exact hname

theorem Kept.step {t t' : SystemState (validated : Store ι String Int64)} {label : Label ι}
    (h : Kept tables t) (hplaced : AllPlaced tables uniqueViolation inputs t)
    (hstep : SystemStep validated t label t') : Kept tables t' := by
  have hcall := hplaced.step hstep
  obtain ⟨sender, control, control', hmoves⟩ := hplaced.moves hstep
  refine ⟨?_, ?_⟩
  · intro name hname
    by_cases haction : label.action = .lands
    · obtain ⟨sender, found, hlanding⟩ := hcall.lands haction
      by_cases heq : name = inputs label.process
      · rw [heq]
        exact ⟨sender, hlanding.named⟩
      · rw [hlanding.committed, Function.update_of_ne heq] at hname
        exact h.named name hname
    · rw [(hcall.stays haction).1] at hname
      exact h.named name hname
  · intro i view name count hview hseen
    apply hcall.present
    by_cases hi : i = label.process
    · subst hi
      rcases hmoves.store.seen hview hseen with haction | ⟨before, hbefore, hseen⟩
      · rw [← hmoves.finds haction]
        exact Option.some_ne_none count
      · exact h.seen _ before name count hbefore hseen
    · rw [hmoves.store.views_of_ne hi] at hview
      exact h.seen i view name count hview hseen

/-- What holds after any run over a table that is empty at first. -/
theorem kept_of_run {labels : List (Label ι)} {t : SystemState (validated : Store ι String Int64)}
    (hrun : Run validated tables uniqueViolation inputs (fun _ => none) labels t) :
    AllPlaced tables uniqueViolation inputs t ∧ Kept tables t := by
  refine Trace.invariant (I := fun t => AllPlaced tables uniqueViolation inputs t ∧ Kept tables t)
    ?_ hrun ⟨fun i => placed_execute tables uniqueViolation (inputs i), ?_, ?_⟩
  · intro t label t' h hstep
    exact ⟨(h.1.step hstep).placed, h.2.step h.1 hstep⟩
  · intro name hname
    exact absurd rfl hname
  · intro i view name count hview
    cases hview

/-- A row of an accepted name with a count that a greeting can have is read back. -/
theorem rehydrateRow_of_range {name : String} {sender : SenderName tables} {row : Option Int64}
    (hname : row ≠ none → SenderName.new tables name = .ok sender)
    (hrange : ∀ count, row = some count → 1 ≤ count.toInt ∧ count.toInt ≤ maxCount) :
    ∃ found, rehydrateRow tables (rowOf name row) = .ok found := by
  cases row with
  | none => exact ⟨none, rfl⟩
  | some count =>
    obtain ⟨hpos, hmax⟩ := hrange count rfl
    rw [maxCount] at hmax
    have hcount : u32TryFrom count = some (UInt32.ofNat count.toInt.toNat) := by
      rw [u32TryFrom, if_pos (by omega)]
    refine ⟨some (.fromPersistence sender (.ofNat count.toInt.toNat)), ?_⟩
    show ((Model.mk name count).rehydrate tables).map some = _
    rw [Model.rehydrate, hname (Option.some_ne_none count), hcount]
    rfl

/-! ## What was last written -/

theorem Answers.finds_eq {name : String} {found : Option Model} {action : Action String Int64}
    (h : Answers ⟨.statement (.find name), .ok found⟩ action) :
    ∃ row, found = rowOf name row ∧ action = .finds name row := by
  cases h with
  | finds _ row => exact ⟨row, rfl, rfl⟩

theorem AllPlaced.trace {t t' : SystemState (validated : Store ι String Int64)}
    {labels : List (Label ι)} (hplaced : AllPlaced tables uniqueViolation inputs t)
    (h : Trace (SystemStep validated) t labels t') : AllPlaced tables uniqueViolation inputs t' :=
  Trace.invariant (fun hplaced hstep => (hplaced.step hstep).placed) h hplaced

/-- The transaction of a call stays as it is while others make their steps. -/
theorem views_of_others {t t' : SystemState (validated : Store ι String Int64)}
    {labels : List (Label ι)} {i : ι} (h : Trace (SystemStep validated) t labels t')
    (hothers : ∀ label ∈ labels, label.process ≠ i) : t'.store.views i = t.store.views i := by
  induction h with
  | nil => rfl
  | cons hstep _ ih =>
    rw [ih fun label hlabel => hothers label (List.mem_cons_of_mem _ hlabel)]
    have hne := hothers _ List.mem_cons_self
    cases hstep with
    | step _ _ hstore => exact ValidatedStep.views_of_ne hstore (Ne.symm hne)

/-- A row stays as it is while no call of its sender lands. -/
theorem committed_of_unlanded {t t' : SystemState (validated : Store ι String Int64)}
    {labels : List (Label ι)} {name : String} (hplaced : AllPlaced tables uniqueViolation inputs t)
    (h : Trace (SystemStep validated) t labels t')
    (hothers : ∀ label ∈ labels, label.action = .lands → inputs label.process ≠ name) :
    t'.committed name = t.committed name := by
  induction h with
  | nil => rfl
  | @cons _ _ _ label _ hstep _ ih =>
    have hcall := hplaced.step hstep
    rw [ih hcall.placed fun label hlabel => hothers label (List.mem_cons_of_mem _ hlabel)]
    by_cases haction : label.action = .lands
    · have hother := hothers label List.mem_cons_self haction
      obtain ⟨sender, found, hlanding⟩ := hcall.lands haction
      rw [hlanding.committed, Function.update_of_ne (Ne.symm hother)]
    · rw [(hcall.stays haction).1]

/-- The write of a transaction is the row that is committed once it has landed. -/
theorem committed_of_lands {t t' : SystemState (validated : Store ι String Int64)}
    {label : Label ι} {view : View String Int64} {name : String} {count : Int64}
    (hstep : SystemStep validated t label t') (haction : label.action = .lands)
    (hview : t.store.views label.process = some view)
    (hpending : view.pending = Function.update (fun _ => none) name (some count)) :
    t'.committed name = some count := by
  cases hstep with
  | @step state _ _ _ hstore =>
    show state.committed name = some count
    rw [haction] at hstore
    cases hstore with
    | lands hopen =>
      rw [hview] at hopen
      cases hopen
      show overlay view.pending t.store.committed name = some count
      rw [hpending, overlay_update, Function.update_self]

/-! ## Runs -/

/-- A run stops right before each of its steps. -/
theorem Run.split {store : Store ι String Int64} {labels : List (Label ι)} {s : SystemState store}
    (hrun : Run store tables uniqueViolation inputs table labels s) {label : Label ι}
    (hlabel : label ∈ labels) : ∃ before after s₁ s₂, labels = before ++ label :: after ∧
      Run store tables uniqueViolation inputs table before s₁ ∧ SystemStep store s₁ label s₂ := by
  obtain ⟨before, after, rfl⟩ := List.append_of_mem hlabel
  obtain ⟨s₁, hbefore, hrest⟩ := Trace.append_iff.mp hrun
  obtain ⟨s₂, hstep, _⟩ := Trace.cons_iff.mp hrest
  exact ⟨before, after, s₁, s₂, rfl, hbefore, hstep⟩

theorem countable_empty : Countable fun _ => none := by
  intro sender count h
  cases h

section Empty

variable {labels : List (Label ι)} {t : SystemState (validated : Store ι String Int64)}

theorem readable_of_run
    (hrun : Run validated tables uniqueViolation inputs (fun _ => none) labels t) (name : String) :
    ∃ found, rehydrateRow tables (rowOf name (t.committed name)) = .ok found := by
  by_cases hrow : t.committed name = none
  · exact ⟨none, by rw [hrow]; rfl⟩
  · obtain ⟨sender, hname⟩ := (kept_of_run hrun).2.named name hrow
    exact rehydrateRow_of_range (fun _ => hname)
      ((landed_of_run countable_empty hrun).2.countable name)

theorem updates_of_run
    (hrun : Run validated tables uniqueViolation inputs (fun _ => none) labels t)
    {label : Label ι} (hlabel : label ∈ labels) {model : Model}
    (hevent : label.event = ⟨.statement (.write .update model), .ok ()⟩) {name : String}
    {returning : Bool} (houtcome : t.HasOutcome label.process (.ok (.recorded name returning))) :
    returning = true := by
  obtain ⟨before, after, t₁, t₂, hlabels, hbefore, hstep⟩ := hrun.split hlabel
  obtain ⟨hplaced, hkept⟩ := kept_of_run hbefore
  obtain ⟨sender, control, control', hmoves⟩ := hplaced.moves hstep
  have hlanded := (landed_of_run countable_empty hbefore).2
  -- The row was there before this call could have landed.
  obtain ⟨view, count, hview, hseen⟩ := (hmoves.writes hevent).seen rfl
  have hpresent := hkept.seen _ view _ count hview hseen
  rcases (hlanded.present_iff countable_empty _).mp hpresent with habsent | ⟨j, hj, hinput⟩
  · exact absurd rfl habsent
  have hfresh := hlanded.fresh (hplaced.step hstep)
  obtain ⟨_, first, last, hlist, hreturning⟩ :=
    (landed_of_run countable_empty hrun).2.recorded _ name returning houtcome
  obtain ⟨earlier, later, hsplit⟩ := List.append_of_mem hj
  rw [hlabels, landings_append, hsplit, List.append_assoc, List.cons_append] at hlist
  have hnot : label.process ∉ earlier := by
    intro hmem
    apply hfresh
    rw [hsplit]
    exact List.mem_append_left _ hmem
  rw [hreturning]
  rcases eq_or_mem_of_append_cons hlist hnot with ⟨heq, _⟩ | hmem
  · exact absurd (heq ▸ hj) hfresh
  · exact Or.inr ⟨j, hmem, hinput⟩

/-- A row is what was last written, and landed. -/
theorem written_of_run {before middle after : List (Label ι)} {write land : Label ι}
    {kind : WriteKind} {greeting : Greeting tables}
    (hrun : Run validated tables uniqueViolation inputs (fun _ => none)
      (before ++ write :: (middle ++ land :: after)) t)
    (hwrite : write.event = ⟨.statement (.write kind greeting.toModel), .ok ()⟩)
    (hmiddle : ∀ label ∈ middle, label.process ≠ write.process)
    (hprocess : land.process = write.process) (hland : land.action = .lands)
    (hafter : ∀ label ∈ after, label.action = .lands →
      inputs label.process ≠ greeting.sender.asStr) :
    rowOf greeting.sender.asStr (t.committed greeting.sender.asStr) = some greeting.toModel := by
  obtain ⟨t₁, hbefore, hrest⟩ := Trace.append_iff.mp hrun
  obtain ⟨t₂, hstep₁, hrest⟩ := Trace.cons_iff.mp hrest
  obtain ⟨t₃, htrace, hrest⟩ := Trace.append_iff.mp hrest
  obtain ⟨t₄, hstep₃, htrace'⟩ := Trace.cons_iff.mp hrest
  have hplaced₁ := (kept_of_run hbefore).1
  have hplaced₄ := (((hplaced₁.step hstep₁).placed.trace htrace).step hstep₃).placed
  obtain ⟨_, _, _, hmoves⟩ := hplaced₁.moves hstep₁
  have hwrote := hmoves.writes hwrite
  obtain ⟨greeting', hsender, hmodel⟩ := hwrote.greeting
  have hname : greeting.sender.asStr = inputs write.process := by
    rw [← hsender]
    exact congrArg Model.sender hmodel
  -- What is written is pending until it lands, and then committed as long as nothing else does.
  obtain ⟨view, hview, hpending⟩ := hwrote.pending
  rw [← views_of_others htrace hmiddle, ← hprocess] at hview
  have hcommitted := committed_of_lands hstep₃ hland hview hpending
  rw [← hname, ← committed_of_unlanded hplaced₄ htrace' hafter] at hcommitted
  rw [hcommitted]
  rfl

/-- A lookup that succeeds returns the row that is committed. -/
theorem found_of_run {before after : List (Label ι)} {find : Label ι} {name : String}
    {row : Option Model}
    (hrun : Run validated tables uniqueViolation inputs (fun _ => none)
      (before ++ find :: after) t)
    (hfind : find.event = ⟨.statement (.find name), .ok row⟩) :
    ∃ t₁, Run validated tables uniqueViolation inputs (fun _ => none) before t₁ ∧
      row = rowOf name (t₁.committed name) := by
  obtain ⟨t₁, hbefore, hrest⟩ := Trace.append_iff.mp hrun
  obtain ⟨t₂, hstep, _⟩ := Trace.cons_iff.mp hrest
  obtain ⟨_, _, _, hmoves⟩ := (kept_of_run hbefore).1.moves hstep
  have hanswers := hmoves.answers
  rw [hfind] at hanswers
  obtain ⟨count, rfl, haction⟩ := hanswers.finds_eq
  refine ⟨t₁, hbefore, ?_⟩
  rw [hmoves.finds haction]

theorem lastWritten_of_run
    {before middle middle' after : List (Label ι)} {write land find : Label ι}
    {kind : WriteKind} {greeting : Greeting tables} {row : Option Model}
    (hrun : Run validated tables uniqueViolation inputs (fun _ => none)
      (before ++ write :: (middle ++ land :: (middle' ++ find :: after))) t)
    (hwrite : write.event = ⟨.statement (.write kind greeting.toModel), .ok ()⟩)
    (hmiddle : ∀ label ∈ middle, label.process ≠ write.process)
    (hprocess : land.process = write.process) (hland : land.action = .lands)
    (hmiddle' : ∀ label ∈ middle', label.action = .lands →
      inputs label.process ≠ greeting.sender.asStr)
    (hfind : find.event = ⟨.statement (.find greeting.sender.asStr), .ok row⟩) :
    rehydrateRow tables row = .ok (some greeting) := by
  have hsplit : before ++ write :: (middle ++ land :: (middle' ++ find :: after)) =
      (before ++ write :: (middle ++ land :: middle')) ++ find :: after := by
    simp only [List.append_assoc, List.cons_append]
  rw [hsplit] at hrun
  obtain ⟨t₁, hbefore, rfl⟩ := found_of_run hrun hfind
  rw [written_of_run hbefore hwrite hmiddle hprocess hland hmiddle']
  show (greeting.toModel.rehydrate tables).map some = _
  rw [rehydrate_toModel]
  rfl

end Empty

/-- Every stored greeting is read back as it was written, on either database. -/
theorem stored_greetings_read_back (backend : Backend) (tables : UnicodeTables)
    (uniqueViolation : DbErr → Bool) (inputs : ι → String) (labels : List (Label ι))
    (s : SystemState (storeOf ι backend))
    (hrun : Run (storeOf ι backend) tables uniqueViolation inputs (fun _ => none) labels s) :
    ReadsBack tables inputs labels s := by
  obtain ⟨R, hrefines⟩ := storeOf_refines ι backend
  obtain ⟨t, hvalidated, hsame⟩ := hrun.refines hrefines
  have hcommitted := hsame.committed hrefines
  refine ⟨?_, ?_, ?_, ?_, ?_, ?_⟩
  · intro name count hrow
    rw [← hcommitted] at hrow
    have hpresent : t.committed name ≠ none := by
      rw [hrow]
      exact Option.some_ne_none count
    obtain ⟨sender, hname⟩ := (kept_of_run hvalidated).2.named name hpresent
    have heq := SenderName.asStr_of_new hname
    subst heq
    refine ⟨⟨sender, hname, rfl⟩, ?_, sender.short,
      (landed_of_run countable_empty hvalidated).2.countable _ count hrow⟩
    exact Nat.pos_of_ne_zero fun hzero => sender.nonempty (String.length_eq_zero_iff.mp hzero)
  · intro sender
    rw [← hcommitted]
    exact readable_of_run hvalidated sender.asStr
  · intro label hlabel name row hevent
    obtain ⟨before, after, rfl⟩ := List.append_of_mem hlabel
    obtain ⟨t₁, hbefore, rfl⟩ := found_of_run hvalidated hevent
    exact readable_of_run hbefore name
  · intro label hlabel kind model hevent
    obtain ⟨before, _, t₁, t₂, _, hbefore, hstep⟩ := hvalidated.split hlabel
    obtain ⟨_, _, _, hmoves⟩ := (kept_of_run hbefore).1.moves hstep
    exact (hmoves.writes hevent).greeting
  · intro before write middle land middle' find after kind greeting row hlabels hwrite hmiddle
      hprocess hland hmiddle' hfind
    rw [hlabels] at hvalidated
    exact lastWritten_of_run hvalidated hwrite hmiddle hprocess hland hmiddle' hfind
  · intro label hlabel model hevent name returning houtcome
    rw [SystemState.HasOutcome, ← hsame.programs] at houtcome
    exact updates_of_run hvalidated hlabel hevent houtcome

theorem stored_greetings_read_back_race : ∃ s : SystemState (storeOf Bool .postgres),
    ReadsBack .ascii (fun _ => "ada") race s := by
  obtain ⟨s, hrun⟩ := race_runs
  exact ⟨s, stored_greetings_read_back .postgres .ascii sqlUnique (fun _ => "ada") race s hrun⟩

end QuizArena.Greet
