import QuizArena.Greet.Cancellation

/-!
# Lifetimes of the service

A service that starts creates the table if there is none and then serves calls until it
ends, in the middle of whatever calls are running. On a database that outlives the process
the next one finds what has landed, and nothing else: over any number of lifetimes the
counts are those of all the calls that landed, and a sender is met for the first time once.
A database in memory, which is the default, goes with its process, and every lifetime begins
anew.
-/

namespace QuizArena.Greet

open Lib Kernel

variable {ι : Type} {persists : Bool} {tables : UnicodeTables} {uniqueViolation : DbErr → Bool}
  {backend : Backend}

/-- A database while no call runs: the rows of the table, if there is one. -/
abbrev Database := Option (String → Option Int64)

/-- The rows of the table, of which there are none before it is created. -/
def Database.rows (database : Database) : String → Option Int64 := database.getD fun _ => none

/-- `create_schema`: `CREATE TABLE IF NOT EXISTS`. -/
def createSchema : Database → Database
  | none => some fun _ => none
  | some table => some table

@[simp] theorem rows_createSchema (database : Database) :
    (createSchema database).rows = database.rows := by
  cases database <;> rfl

/-- What the process leaves behind of its database, which may not outlive it. -/
def Database.left (persists : Bool) (database : Database) : Database :=
  if persists then database else none

/-- What happens to the database while a service is up. -/
inductive Lifetime (backend : Backend) (ι : Type) [DecidableEq ι] where
  /-- The service ends before its `create_schema` takes effect. -/
  | aborts
  /-- It ends before it serves anything, its table created. -/
  | creates
  /-- It serves calls, and ends with some of them running. -/
  | serves (inputs : ι → String) (labels : List (CutLabel ι))
    (s : CutState (storeOf ι backend))

variable [DecidableEq ι]

/-- The senders whose calls landed, in the order in which they did. -/
def Lifetime.landed : Lifetime backend ι → List String
  | .aborts | .creates => []
  | .serves inputs labels _ => (cutLandings labels).map inputs

/-- The senders whose calls landed over several lifetimes. -/
def landedOver (lifetimes : List (Lifetime backend ι)) : List String :=
  lifetimes.flatMap Lifetime.landed

/-- Those of them that the database still knows when the lifetimes are over. -/
def knownAfter (persists : Bool) (lifetimes : List (Lifetime backend ι)) : List String :=
  if persists then landedOver lifetimes else []

/-- The service comes up on a database and leaves it behind. -/
inductive LifetimeStep (persists : Bool) (tables : UnicodeTables)
    (uniqueViolation : DbErr → Bool) : Database → Lifetime backend ι → Database → Prop where
  | aborts (database : Database) :
      LifetimeStep persists tables uniqueViolation database .aborts (database.left persists)
  | creates (database : Database) :
      LifetimeStep persists tables uniqueViolation database .creates
        ((createSchema database).left persists)
  | serves {database : Database} {inputs : ι → String} {labels : List (CutLabel ι)}
      {s : CutState (storeOf ι backend)} :
      CutRun (storeOf ι backend) tables uniqueViolation inputs (createSchema database).rows
        labels s →
      LifetimeStep persists tables uniqueViolation database (.serves inputs labels s)
        (Database.left persists (some s.calls.committed))

/-- A call of one of the lifetimes, and what the service had served before. -/
structure CallOf (lifetimes earlier : List (Lifetime backend ι)) (inputs : ι → String)
    (labels : List (CutLabel ι)) (s : CutState (storeOf ι backend)) : Prop where
  split : ∃ later, lifetimes = earlier ++ .serves inputs labels s :: later

theorem CallOf.snoc {lifetimes earlier : List (Lifetime backend ι)} {lifetime : Lifetime backend ι}
    {inputs : ι → String} {labels : List (CutLabel ι)} {s : CutState (storeOf ι backend)}
    (h : CallOf (lifetimes ++ [lifetime]) earlier inputs labels s) :
    CallOf lifetimes earlier inputs labels s ∨
      lifetimes = earlier ∧ lifetime = .serves inputs labels s := by
  obtain ⟨later, hlater⟩ := h.split
  rcases List.eq_nil_or_concat later with rfl | ⟨later, last, rfl⟩
  · obtain ⟨hearlier, hlast⟩ := List.append_inj' hlater rfl
    exact Or.inr ⟨hearlier, List.singleton_inj.mp hlast⟩
  · rw [List.concat_eq_append, ← List.cons_append, ← List.append_assoc] at hlater
    obtain ⟨hlifetimes, _⟩ := List.append_inj' hlater rfl
    exact Or.inl ⟨later, hlifetimes⟩

/-- What the lifetimes of a service leave behind. -/
structure Durable (persists : Bool) (tables : UnicodeTables) (database : Database)
    (lifetimes : List (Lifetime backend ι)) (database' : Database) : Prop where
  counts : ∀ name, countOf (database'.rows name) =
    min maxCount (countOf (database.rows name) + (knownAfter persists lifetimes).count name)
  countable : Countable database'.rows
  /-- What one service stores the next ones can read. -/
  named : (∀ name, database.rows name ≠ none → ∃ sender, SenderName.new tables name = .ok sender) →
    ∀ name, database'.rows name ≠ none → ∃ sender, SenderName.new tables name = .ok sender
  /-- A sender is a returning one after its first call that landed and is still known. -/
  recorded : ∀ earlier inputs labels s, CallOf lifetimes earlier inputs labels s →
    ∀ i name returning, s.HasOutcome i (.ok (.recorded name returning)) →
    name = inputs i ∧ ∃ before after, cutLandings labels = before ++ i :: after ∧
      (returning = true ↔
        database.rows name ≠ none ∨ name ∈ knownAfter persists earlier ++ before.map inputs)

theorem Durable.present_iff {database database' : Database}
    {lifetimes : List (Lifetime backend ι)} (hstart : Countable database.rows)
    (h : Durable persists tables database lifetimes database') (name : String) :
    database'.rows name ≠ none ↔
      database.rows name ≠ none ∨ name ∈ knownAfter persists lifetimes := by
  rw [ne_none_iff_countOf h.countable, ne_none_iff_countOf hstart, h.counts, maxCount,
    ← List.count_pos_iff]
  have hnonneg := hstart.nonneg name
  omega

/-! ## One lifetime -/

/-- What a lifetime makes of the database it finds. -/
structure Served (tables : UnicodeTables) (database : Database) (lifetime : Lifetime backend ι)
    (database' : Database) : Prop where
  counts : ∀ name, countOf (database'.rows name) =
    min maxCount (countOf (database.rows name) + lifetime.landed.count name)
  countable : Countable database'.rows
  named : (∀ name, database.rows name ≠ none → ∃ sender, SenderName.new tables name = .ok sender) →
    ∀ name, database'.rows name ≠ none → ∃ sender, SenderName.new tables name = .ok sender
  recorded : ∀ inputs labels s, lifetime = .serves inputs labels s →
    ∀ i name returning, s.HasOutcome i (.ok (.recorded name returning)) →
    name = inputs i ∧ ∃ before after, cutLandings labels = before ++ i :: after ∧
      (returning = true ↔ database.rows name ≠ none ∨ name ∈ before.map inputs)

theorem Countable.countOf_le {table : String → Option Int64} (h : Countable table)
    (name : String) : countOf (table name) ≤ maxCount := by
  cases hrow : table name with
  | none =>
    rw [countOf, maxCount]
    omega
  | some count => exact (h name count hrow).2

/-- A lifetime in which nothing is served. -/
theorem served_idle {database database' : Database} {lifetime : Lifetime backend ι}
    (hstart : Countable database.rows) (hrows : database'.rows = database.rows)
    (hlanded : lifetime.landed = [])
    (hidle : ∀ inputs labels s, lifetime ≠ .serves inputs labels s) :
    Served tables database lifetime database' where
  counts name := by
    have hle := hstart.countOf_le name
    rw [hrows, hlanded, List.count_nil]
    omega
  countable := by
    rw [hrows]
    exact hstart
  named hnamed := by
    rw [hrows]
    exact hnamed
  recorded inputs labels s heq := absurd heq (hidle inputs labels s)

/-- Every row of a run is keyed by an accepted name when those at the start were. -/
theorem named_of_run {inputs : ι → String} {table : String → Option Int64}
    {labels : List (Label ι)} {t : SystemState (validated : Store ι String Int64)}
    (hrun : Run validated tables uniqueViolation inputs table labels t)
    (htable : ∀ name, table name ≠ none → ∃ sender, SenderName.new tables name = .ok sender)
    (name : String) (hname : t.committed name ≠ none) :
    ∃ sender, SenderName.new tables name = .ok sender := by
  have hkept := Trace.invariant
    (I := fun t => AllPlaced tables uniqueViolation inputs t ∧
      ∀ name, t.committed name ≠ none → ∃ sender, SenderName.new tables name = .ok sender)
    ?_ hrun ⟨fun i => placed_execute tables uniqueViolation (inputs i), htable⟩
  · exact hkept.2 name hname
  · intro t label t' h hstep
    have hcall := h.1.step hstep
    refine ⟨hcall.placed, ?_⟩
    intro name hname
    by_cases haction : label.action = .lands
    · obtain ⟨sender, found, hlanding⟩ := hcall.lands haction
      by_cases heq : name = inputs label.process
      · rw [heq]
        exact ⟨sender, hlanding.named⟩
      · rw [hlanding.committed, Function.update_of_ne heq] at hname
        exact h.2 name hname
    · rw [(hcall.stays haction).1] at hname
      exact h.2 name hname

omit [DecidableEq ι] in
theorem countP_eq_count_map {inputs : ι → String} (landed : List ι) (name : String) :
    (landed.countP fun i => inputs i = name) = (landed.map inputs).count name := by
  rw [List.count, List.countP_map]
  congr 1

/-- A lifetime in which calls are served. -/
theorem served_serves {database : Database} {inputs : ι → String} {labels : List (CutLabel ι)}
    {s : CutState (storeOf ι backend)} (hstart : Countable database.rows)
    (hrun : CutRun (storeOf ι backend) tables uniqueViolation inputs (createSchema database).rows
      labels s) :
    Served tables database (.serves inputs labels s) (some s.calls.committed) := by
  obtain ⟨labels', t, hby⟩ := landedBy_of_cutRun hrun
  have hrun' := hby.run
  rw [rows_createSchema] at hrun'
  have hlanded := (landed_of_run hstart hrun').2
  have hrows : (Database.rows (some s.calls.committed)) = t.committed := hby.committed.symm
  refine ⟨?_, ?_, ?_, ?_⟩
  · intro name
    rw [hrows, hlanded.counts, hby.landings, countP_eq_count_map]
    rfl
  · rw [hrows]
    exact hlanded.countable
  · intro hnamed
    rw [hrows]
    exact named_of_run hrun' hnamed
  · intro inputs' labels'' s' hserves i name returning hi
    cases hserves
    obtain ⟨rfl, before, after, hsplit, hreturning⟩ :=
      hlanded.recorded i name returning (hby.outcome i _ hi)
    rw [hby.landings] at hsplit
    refine ⟨rfl, before, after, hsplit, ?_⟩
    rw [hreturning, List.mem_map]

/-! ## Any number of lifetimes -/

theorem knownAfter_snoc (lifetimes : List (Lifetime backend ι)) (lifetime : Lifetime backend ι) :
    knownAfter true (lifetimes ++ [lifetime]) =
      knownAfter true lifetimes ++ lifetime.landed := by
  show landedOver (lifetimes ++ [lifetime]) = landedOver lifetimes ++ lifetime.landed
  unfold landedOver
  rw [List.flatMap_append, List.flatMap_singleton]

/-- One lifetime more, of whose database the next one finds what the process leaves behind. -/
theorem Durable.served {database database' ended : Database}
    {lifetimes : List (Lifetime backend ι)} {lifetime : Lifetime backend ι}
    (hstart : Countable database.rows) (hmemory : persists = false → database = none)
    (h : Durable persists tables database lifetimes database')
    (hserved : Served tables database' lifetime ended) :
    Durable persists tables database (lifetimes ++ [lifetime]) (ended.left persists) := by
  have hrecorded : ∀ earlier inputs labels s,
      CallOf (lifetimes ++ [lifetime]) earlier inputs labels s →
      ∀ i name returning, s.HasOutcome i (.ok (.recorded name returning)) →
      name = inputs i ∧ ∃ before after, cutLandings labels = before ++ i :: after ∧
        (returning = true ↔
          database.rows name ≠ none ∨ name ∈ knownAfter persists earlier ++ before.map inputs) := by
    intro earlier inputs labels s hcall i name returning hi
    rcases hcall.snoc with hcall | ⟨rfl, hserves⟩
    · exact h.recorded earlier inputs labels s hcall i name returning hi
    · obtain ⟨hname, before, after, hsplit, hreturning⟩ :=
        hserved.recorded inputs labels s hserves i name returning hi
      refine ⟨hname, before, after, hsplit, ?_⟩
      rw [hreturning, h.present_iff hstart, List.mem_append, or_assoc]
  cases persists with
  | true =>
    refine ⟨?_, hserved.countable, fun hnamed => hserved.named (h.named hnamed), hrecorded⟩
    intro name
    have hnonneg := hstart.nonneg name
    show countOf (ended.rows name) = _
    rw [hserved.counts, h.counts, knownAfter_snoc, List.count_append]
    rw [maxCount]
    omega
  | false =>
    obtain rfl := hmemory rfl
    exact ⟨fun _ => rfl, hstart, fun hnamed => hnamed, hrecorded⟩

theorem Durable.step {database database' database'' : Database}
    {lifetimes : List (Lifetime backend ι)} {lifetime : Lifetime backend ι}
    (hstart : Countable database.rows) (hmemory : persists = false → database = none)
    (h : Durable persists tables database lifetimes database')
    (hstep : LifetimeStep persists tables uniqueViolation database' lifetime database'') :
    Durable persists tables database (lifetimes ++ [lifetime]) database'' := by
  cases hstep with
  | aborts =>
    exact h.served hstart hmemory
      (served_idle h.countable rfl rfl fun _ _ _ heq => by cases heq)
  | creates =>
    exact h.served hstart hmemory
      (served_idle h.countable (rows_createSchema _) rfl fun _ _ _ heq => by cases heq)
  | serves hrun => exact h.served hstart hmemory (served_serves h.countable hrun)

/-- Two calls that meet their sender for the first time, on a database that persists or in the
    same lifetime, are the same call. -/
def MetOnce (persists : Bool) (lifetimes : List (Lifetime backend ι)) : Prop :=
  ∀ name earlier earlier' inputs inputs' labels labels' s s' i i',
    CallOf lifetimes earlier inputs labels s → CallOf lifetimes earlier' inputs' labels' s' →
    s.HasOutcome i (.ok (.recorded name false)) → s'.HasOutcome i' (.ok (.recorded name false)) →
    persists = true ∨ earlier = earlier' → earlier = earlier' ∧ i = i'

theorem Durable.metOnce {database database' : Database} {lifetimes : List (Lifetime backend ι)}
    (h : Durable persists tables database lifetimes database') : MetOnce persists lifetimes := by
  intro name earlier earlier' inputs inputs' labels labels' s s' i i' hcall hcall' hi hi' hknown
  -- Nothing of the sender that is known landed before a call that meets it for the first time.
  obtain ⟨hname, before, after, hsplit, hfirst⟩ := h.recorded _ _ _ _ hcall i name false hi
  obtain ⟨hname', before', after', hsplit', hfirst'⟩ := h.recorded _ _ _ _ hcall' i' name false hi'
  simp only [Bool.false_eq_true, false_iff, not_or, List.mem_append] at hfirst hfirst'
  obtain ⟨later, hlater⟩ := hcall.split
  obtain ⟨later', hlater'⟩ := hcall'.split
  have hsame : earlier = earlier' ∧
      (.serves inputs labels s : Lifetime backend ι) = .serves inputs' labels' s' := by
    rcases hknown with rfl | rfl
    · have hlanded : name ∈ Lifetime.landed (.serves inputs labels s : Lifetime backend ι) := by
        rw [Lifetime.landed, hsplit, hname]
        simp
      have hlanded' : name ∈ Lifetime.landed (.serves inputs' labels' s' : Lifetime backend ι) := by
        rw [Lifetime.landed, hsplit', hname']
        simp
      have hnot : .serves inputs' labels' s' ∉ earlier := fun hmem =>
        hfirst.2.1 (List.mem_flatMap.mpr ⟨_, hmem, hlanded'⟩)
      rcases eq_or_mem_of_append_cons (hlater.symm.trans hlater') hnot with
        ⟨hserves, hearlier⟩ | hmem
      · exact ⟨hearlier.symm, hserves.symm⟩
      · exact absurd (List.mem_flatMap.mpr ⟨_, hmem, hlanded⟩) hfirst'.2.1
    · have hrest := List.append_cancel_left (hlater.symm.trans hlater')
      exact ⟨rfl, (List.cons.inj hrest).1⟩
  obtain ⟨rfl, hserves⟩ := hsame
  cases hserves
  refine ⟨rfl, ?_⟩
  have hearly : i' ∉ before := by
    intro hmem
    apply hfirst.2.2
    rw [hname']
    exact List.mem_map_of_mem hmem
  rcases eq_or_mem_of_append_cons (hsplit.symm.trans hsplit') hearly with ⟨heq, _⟩ | hmem
  · exact heq.symm
  · exfalso
    apply hfirst'.2.2
    rw [hname]
    exact List.mem_map_of_mem hmem

/-- Greetings survive any number of restarts on a database that does, and on one that goes with
    its process every lifetime knows its own greetings only. -/
theorem greetings_survive_restarts (persists : Bool) (backend : Backend) (tables : UnicodeTables)
    (uniqueViolation : DbErr → Bool) (database database' : Database)
    (hstart : Countable database.rows) (hmemory : persists = false → database = none)
    (lifetimes : List (Lifetime backend ι))
    (h : Trace (LifetimeStep persists tables uniqueViolation) database lifetimes database') :
    Durable persists tables database lifetimes database' ∧ MetOnce persists lifetimes := by
  have hdurable : Durable persists tables database lifetimes database' := by
    refine Trace.history (I := fun lifetimes database' =>
      Durable persists tables database lifetimes database')
      (fun h hstep => h.step hstart hmemory hstep) [] h ?_
    refine ⟨?_, hstart, fun hnamed => hnamed, ?_⟩
    · intro name
      have hle := hstart.countOf_le name
      have hnone : (knownAfter persists ([] : List (Lifetime backend ι))).count name = 0 := by
        cases persists <;> rfl
      rw [hnone]
      omega
    · intro earlier inputs labels s hcall
      obtain ⟨later, hlater⟩ := hcall.split
      simp at hlater
  exact ⟨hdurable, hdurable.metOnce⟩

/-- A service that is asked to greet the same sender in two of its lifetimes. -/
def firstGreeting : List (CutLabel Unit) :=
  [.call ⟨(), ⟨.begin, .ok ()⟩, .begins⟩,
    .call ⟨(), ⟨.statement (.find "ada"), .ok none⟩, .finds "ada" none⟩,
    .call ⟨(), ⟨.statement (.write .insert ⟨"ada", 1⟩), .ok ()⟩, .inserts "ada" 1⟩,
    .call ⟨(), ⟨.commit, .ok ()⟩, .lands⟩]

def secondGreeting : List (CutLabel Unit) :=
  [.call ⟨(), ⟨.begin, .ok ()⟩, .begins⟩,
    .call ⟨(), ⟨.statement (.find "ada"), .ok (some ⟨"ada", 1⟩)⟩, .finds "ada" (some 1)⟩,
    .call ⟨(), ⟨.statement (.write .update ⟨"ada", 2⟩), .ok ()⟩, .updates "ada" 2⟩,
    .call ⟨(), ⟨.commit, .ok ()⟩, .lands⟩]

theorem firstGreeting_runs (table : String → Option Int64) (htable : table "ada" = none) :
    ∃ s, CutRun (storeOf Unit .postgres) .ascii sqlUnique (fun _ => "ada") table firstGreeting s ∧
      s.HasOutcome () (.ok (.recorded "ada" false)) ∧ s.calls.committed "ada" = some 1 := by
  apply Exists.intro
  apply And.intro
  · apply Trace.cons
    · exact .call rfl
        (.step (.call (S := Tx Greetings) .begin _ (.ok ())) .begins (LockStep.begins rfl))
    apply Trace.cons
    · exact .call rfl (.step (.call (S := Tx Greetings) (.statement (.find "ada")) _ (.ok none))
        (.finds "ada" none) (LockStep.findsNone rfl rfl rfl htable))
    apply Trace.cons
    · exact .call rfl (.step
        (.call (S := Tx Greetings) (.statement (.write .insert ⟨"ada", 1⟩)) _ (.ok ()))
        (.inserts ⟨"ada", 1⟩)
        (LockStep.inserts 1 rfl rfl rfl htable fun _ _ hother => absurd rfl hother))
    apply Trace.cons
    · exact .call rfl
        (.step (.call (S := Tx Greetings) .commit _ (.ok ())) .lands (LockStep.lands rfl rfl))
    exact .nil _
  · exact ⟨⟨rfl, rfl⟩, rfl⟩

theorem secondGreeting_runs (table : String → Option Int64) (htable : table "ada" = some 1) :
    ∃ s, CutRun (storeOf Unit .postgres) .ascii sqlUnique (fun _ => "ada") table secondGreeting s ∧
      s.HasOutcome () (.ok (.recorded "ada" true)) := by
  apply Exists.intro
  apply And.intro
  · apply Trace.cons
    · exact .call rfl
        (.step (.call (S := Tx Greetings) .begin _ (.ok ())) .begins (LockStep.begins rfl))
    apply Trace.cons
    · exact .call rfl (.step
        (.call (S := Tx Greetings) (.statement (.find "ada")) _ (.ok (some ⟨"ada", 1⟩)))
        (.finds "ada" (some 1))
        (LockStep.finds 1 rfl rfl rfl htable fun _ _ hother => absurd rfl hother))
    apply Trace.cons
    · exact .call rfl (.step
        (.call (S := Tx Greetings) (.statement (.write .update ⟨"ada", 2⟩)) _ (.ok ()))
        (.updates ⟨"ada", 2⟩)
        (LockStep.updates 2 rfl rfl (by
          show overlay (fun _ => none) table "ada" ≠ none
          rw [overlay_of_none rfl, htable]
          simp) fun _ _ hother => absurd rfl hother))
    apply Trace.cons
    · exact .call rfl
        (.step (.call (S := Tx Greetings) .commit _ (.ok ())) .lands (LockStep.lands rfl rfl))
    exact .nil _
  · exact ⟨rfl, rfl⟩

/-- Restarted on Postgres, the service knows whom it has greeted. -/
theorem greetings_survive_restarts_twice : ∃ s s' : CutState (storeOf Unit .postgres),
    s.HasOutcome () (.ok (.recorded "ada" false)) ∧
      s'.HasOutcome () (.ok (.recorded "ada" true)) ∧
      Durable true .ascii none
        [.serves (fun _ => "ada") firstGreeting s, .serves (fun _ => "ada") secondGreeting s']
        (some s'.calls.committed) ∧
      MetOnce true
        [.serves (fun _ => "ada") firstGreeting s, .serves (fun _ => "ada") secondGreeting s'] := by
  obtain ⟨s, hfirst, houtcome, hrow⟩ := firstGreeting_runs (fun _ => none) rfl
  obtain ⟨s', hsecond, houtcome'⟩ := secondGreeting_runs s.calls.committed hrow
  exact ⟨s, s', houtcome, houtcome', greetings_survive_restarts true .postgres .ascii sqlUnique none
    (some s'.calls.committed) countable_empty (fun h => by cases h)
    [.serves (fun _ => "ada") firstGreeting s, .serves (fun _ => "ada") secondGreeting s']
    (.cons (.serves hfirst) (.cons (.serves hsecond) (.nil _)))⟩

end QuizArena.Greet
