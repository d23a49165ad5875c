import QuizArena.Lib.Prog

/-!
# Programs that tell what they do

Beside its calls a program can tell notes, and open and close spans around its parts. What
it tells changes nothing it does: it follows the program that keeps silent, call by call, and
has the same runs but for the notes. `Told` is the grammar of a log that is told well: the
notes that are due come right after their call, and the spans are nested.
-/

namespace QuizArena.Lib

/-! ## Following another program -/

/-- The first program makes the calls of the second one, and others that are not seen. -/
inductive Prog.Follows {S' S : Signature} (seen : Event S' → Option (Event S)) {α : Type} :
    Prog S' α → Prog S α → Prop where
  | pure (value : α) : Follows seen (.pure value) (.pure value)
  | silent {op : S'.Op} {next : S'.Reply op → Prog S' α} {program : Prog S α} :
      Nonempty (S'.Reply op) → (∀ reply, seen ⟨op, reply⟩ = none) →
      (∀ reply, Follows seen (next reply) program) → Follows seen (.call op next) program
  | call {op' : S'.Op} {next' : S'.Reply op' → Prog S' α} {op : S.Op}
      {next : S.Reply op → Prog S α} (seenReply : S'.Reply op' → S.Reply op) :
      seenReply.Surjective → (∀ reply, seen ⟨op', reply⟩ = some ⟨op, seenReply reply⟩) →
      (∀ reply, Follows seen (next' reply) (next (seenReply reply))) →
      Follows seen (.call op' next') (.call op next)

namespace Prog.Follows

variable {S' S : Signature} {seen : Event S' → Option (Event S)} {α β ε ε' : Type}

theorem bind {program' : Prog S' α} {program : Prog S α} {rest' : α → Prog S' β}
    {rest : α → Prog S β} (h : Follows seen program' program)
    (hrest : ∀ value, Follows seen (rest' value) (rest value)) :
    Follows seen (program'.bind rest') (program.bind rest) := by
  induction h with
  | pure value => exact hrest value
  | silent hreply hseen _ ih => exact .silent hreply hseen ih
  | call seenReply hsurjective hseen _ ih => exact .call seenReply hsurjective hseen ih

/-- What comes after the program may keep silent. -/
theorem bind_silent {program' : Prog S' α} {program : Prog S α} {rest' : α → Prog S' α}
    (h : Follows seen program' program)
    (hrest : ∀ value, Follows seen (rest' value) (.pure value)) :
    Follows seen (program'.bind rest') program := by
  induction h with
  | pure value => exact hrest value
  | silent hreply hseen _ ih => exact .silent hreply hseen ih
  | call seenReply hsurjective hseen _ ih => exact .call seenReply hsurjective hseen ih

theorem orReturn {into : ε → ε'} {program' : Prog S' (Except ε α)} {program : Prog S (Except ε α)}
    {rest' : α → Prog S' (Except ε' β)} {rest : α → Prog S (Except ε' β)}
    (h : Follows seen program' program)
    (hrest : ∀ value, Follows seen (rest' value) (rest value)) :
    Follows seen (program'.orReturn into rest') (program.orReturn into rest) := by
  apply h.bind
  intro result
  cases result with
  | ok value => exact hrest value
  | error error => exact .pure _

/-- A run of the first program is one of the second, as far as it is seen. -/
theorem runs {program' : Prog S' α} {program : Prog S α} (h : Follows seen program' program)
    {log : List (Event S')} {value : α} (hruns : Runs program' log value) :
    Runs program (log.filterMap seen) value := by
  induction h generalizing log with
  | pure value' =>
    obtain ⟨rfl, rfl⟩ := runs_pure_iff.mp hruns
    exact .pure _
  | silent _ hseen _ ih =>
    obtain ⟨reply, rest, rfl, hrest⟩ := runs_call_iff.mp hruns
    rw [List.filterMap_cons_none (hseen reply)]
    exact ih reply hrest
  | call seenReply _ hseen _ ih =>
    obtain ⟨reply, rest, rfl, hrest⟩ := runs_call_iff.mp hruns
    rw [List.filterMap_cons_some (hseen reply)]
    exact .call _ _ (ih reply hrest)

/-- Every run of the second program is what is seen of one of the first. -/
theorem exists_run {program' : Prog S' α} {program : Prog S α} (h : Follows seen program' program)
    {log : List (Event S)} {value : α} (hruns : Runs program log value) :
    ∃ log', Runs program' log' value ∧ log'.filterMap seen = log := by
  induction h generalizing log with
  | pure value' =>
    obtain ⟨rfl, rfl⟩ := runs_pure_iff.mp hruns
    exact ⟨[], .pure _, rfl⟩
  | silent hreply hseen _ ih =>
    obtain ⟨reply⟩ := hreply
    obtain ⟨log', hlog', rfl⟩ := ih reply hruns
    exact ⟨_, .call _ reply hlog', List.filterMap_cons_none (hseen reply)⟩
  | call seenReply hsurjective hseen _ ih =>
    obtain ⟨reply, rest, rfl, hrest⟩ := runs_call_iff.mp hruns
    obtain ⟨reply', rfl⟩ := hsurjective reply
    obtain ⟨log', hlog', rfl⟩ := ih reply' hrest
    exact ⟨_, .call _ reply' hlog', List.filterMap_cons_some (hseen reply')⟩

end Prog.Follows

/-! ## Notes and spans -/

/-- What a program tells. -/
inductive Telling (N Span : Type) where
  | note (note : N)
  | opens (span : Span)
  | closes (span : Span)

/-- The calls of a program that tells as well. -/
def Noted (B : Signature) (N Span : Type) : Signature where
  Op := B.Op ⊕ Telling N Span
  Reply := Sum.elim B.Reply fun _ => Unit

variable {B : Signature} {N Span α β : Type}

/-- A call among what is told. -/
def calling (event : Event B) : Event (Noted B N Span) := ⟨.inl event.1, event.2⟩

def telling (what : Telling N Span) : Event (Noted B N Span) := ⟨.inr what, ()⟩

namespace Prog

def ask (op : B.Op) : Prog (Noted B N Span) (B.Reply op) :=
  perform (S := Noted B N Span) (.inl op)

/-- The note is told before the rest. -/
def noting (note : N) (rest : Prog (Noted B N Span) α) : Prog (Noted B N Span) α :=
  .call (S := Noted B N Span) (.inr (.note note)) fun _ => rest

/-- The notes are told one after another before the rest. -/
def notingAll (notes : List N) (rest : Prog (Noted B N Span) α) : Prog (Noted B N Span) α :=
  notes.foldr noting rest

/-- The body under a span, which is closed when the body has ended. -/
def inSpan (span : Span) (body : Prog (Noted B N Span) α) : Prog (Noted B N Span) α :=
  .call (S := Noted B N Span) (.inr (.opens span)) fun _ => body.bind fun value =>
    .call (S := Noted B N Span) (.inr (.closes span)) fun _ => .pure value

theorem runs_ask_bind_iff {op : B.Op} {rest : B.Reply op → Prog (Noted B N Span) α}
    {log : List (Event (Noted B N Span))} {value : α} :
    Runs ((ask op).bind rest) log value ↔
      ∃ reply after, log = calling ⟨op, reply⟩ :: after ∧ Runs (rest reply) after value :=
  runs_call_iff

theorem runs_noting_iff {note : N} {rest : Prog (Noted B N Span) α}
    {log : List (Event (Noted B N Span))} {value : α} :
    Runs (noting note rest) log value ↔
      ∃ after, log = telling (.note note) :: after ∧ Runs rest after value := by
  constructor
  · intro h
    obtain ⟨_, after, rfl, hafter⟩ := runs_call_iff.mp h
    exact ⟨after, rfl, hafter⟩
  · intro h
    obtain ⟨after, rfl, hafter⟩ := h
    exact .call (S := Noted B N Span) (.inr (.note note)) () hafter

theorem runs_inSpan_iff {span : Span} {body : Prog (Noted B N Span) α}
    {log : List (Event (Noted B N Span))} {value : α} :
    Runs (inSpan span body) log value ↔
      ∃ inside, log = telling (.opens span) :: (inside ++ [telling (.closes span)]) ∧
        Runs body inside value := by
  constructor
  · intro h
    obtain ⟨_, after, rfl, hafter⟩ := runs_call_iff.mp h
    obtain ⟨inside, last, value', rfl, hinside, hlast⟩ := runs_bind_iff.mp hafter
    obtain ⟨_, rest, rfl, hrest⟩ := runs_call_iff.mp hlast
    obtain ⟨rfl, rfl⟩ := runs_pure_iff.mp hrest
    exact ⟨inside, rfl, hinside⟩
  · intro h
    obtain ⟨inside, rfl, hinside⟩ := h
    refine .call (S := Noted B N Span) (.inr (.opens span)) () (runs_bind_iff.mpr ?_)
    exact ⟨inside, _, value, rfl, hinside,
      .call (S := Noted B N Span) (.inr (.closes span)) () (.pure value)⟩

section Follows

variable {S : Signature} {seen : Event (Noted B N Span) → Option (Event S)}
  (hseen : ∀ what, seen (telling what) = none)

include hseen

theorem follows_noting {note : N} {rest' : Prog (Noted B N Span) α} {rest : Prog S α}
    (h : Follows seen rest' rest) : Follows seen (noting note rest') rest :=
  .silent ⟨()⟩ (fun _ => hseen (.note note)) fun _ => h

theorem follows_notingAll {list : List N} {rest' : Prog (Noted B N Span) α} {rest : Prog S α}
    (h : Follows seen rest' rest) : Follows seen (notingAll list rest') rest := by
  induction list with
  | nil => exact h
  | cons note list ih => exact follows_noting hseen ih

theorem follows_inSpan {span : Span} {body' : Prog (Noted B N Span) α} {body : Prog S α}
    (h : Follows seen body' body) : Follows seen (inSpan span body') body :=
  .silent ⟨()⟩ (fun _ => hseen (.opens span)) fun _ =>
    h.bind_silent fun value => .silent ⟨()⟩ (fun _ => hseen (.closes span)) fun _ => .pure value

end Follows

end Prog

/-! ## Logs that are told well -/

def callOf : Event (Noted B N Span) → Option (Event B)
  | ⟨.inl op, reply⟩ => some ⟨op, reply⟩
  | ⟨.inr _, _⟩ => none

def noteOf : Event (Noted B N Span) → Option N
  | ⟨.inr (.note note), _⟩ => some note
  | _ => none

/-- The calls of a log. -/
def calls (log : List (Event (Noted B N Span))) : List (Event B) := log.filterMap callOf

/-- The notes of a log. -/
def notes (log : List (Event (Noted B N Span))) : List N := log.filterMap noteOf

section Logs

variable {log log' : List (Event (Noted B N Span))}

@[simp] theorem calls_append : calls (log ++ log') = calls log ++ calls log' :=
  List.filterMap_append

@[simp] theorem notes_append : notes (log ++ log') = notes log ++ notes log' :=
  List.filterMap_append

@[simp] theorem calls_calling (event : Event B) :
    calls (calling event :: log) = event :: calls log := rfl

@[simp] theorem notes_calling (event : Event B) : notes (calling event :: log) = notes log := rfl

@[simp] theorem calls_telling (what : Telling N Span) :
    calls (telling what :: log) = calls log := rfl

@[simp] theorem notes_note (note : N) :
    notes (telling (.note note) :: log) = note :: notes log := rfl

@[simp] theorem notes_opens (span : Span) :
    notes (telling (.opens span) :: log) = notes log := rfl

@[simp] theorem notes_closes (span : Span) :
    notes (telling (.closes span) :: log) = notes log := rfl

/-- Notes that are told one after another. -/
def tellings (list : List N) : List (Event (Noted B N Span)) :=
  list.map fun note => telling (.note note)

@[simp] theorem calls_tellings (list : List N) :
    calls (tellings (B := B) (N := N) list ++ log) = calls log := by
  induction list with
  | nil => rfl
  | cons note list ih => exact ih

@[simp] theorem notes_tellings (list : List N) :
    notes (tellings (B := B) (N := N) list ++ log) = list ++ notes log := by
  induction list with
  | nil => rfl
  | cons note list ih => exact congrArg (note :: ·) ih

end Logs

theorem Prog.runs_notingAll_iff {list : List N} {rest : Prog (Noted B N Span) α}
    {log : List (Event (Noted B N Span))} {value : α} :
    Runs (notingAll list rest) log value ↔
      ∃ after, log = tellings list ++ after ∧ Runs rest after value := by
  induction list generalizing log with
  | nil => exact ⟨fun h => ⟨log, rfl, h⟩, fun ⟨after, hlog, h⟩ => hlog ▸ h⟩
  | cons note list ih =>
    constructor
    · intro h
      obtain ⟨middle, rfl, hmiddle⟩ := runs_noting_iff.mp h
      obtain ⟨after, rfl, hafter⟩ := ih.mp hmiddle
      exact ⟨after, rfl, hafter⟩
    · intro h
      obtain ⟨after, rfl, hafter⟩ := h
      exact runs_noting_iff.mpr ⟨_, rfl, ih.mpr ⟨after, rfl, hafter⟩⟩

/-- What is told where: the spans in which a call is made, innermost first, the notes that are
    due after it, and what else may be told in which spans. -/
structure Etiquette (B : Signature) (N Span : Type) where
  within : List Span → B.Op → Prop
  due : Event B → List N
  may : List Span → N → Prop

/-- What is told well inside of the spans. -/
inductive Told (E : Etiquette B N Span) : List Span → List (Event (Noted B N Span)) → Prop where
  | nil (spans : List Span) : Told E spans []
  | call {spans : List Span} {event : Event B} {log : List (Event (Noted B N Span))} :
      E.within spans event.1 → Told E spans log →
      Told E spans (calling event :: (tellings (E.due event) ++ log))
  | note {spans : List Span} {note : N} {log : List (Event (Noted B N Span))} :
      E.may spans note → Told E spans log → Told E spans (telling (.note note) :: log)
  | span {spans : List Span} {span : Span} {inside log : List (Event (Noted B N Span))} :
      Told E (span :: spans) inside → Told E spans log →
      Told E spans (telling (.opens span) :: (inside ++ telling (.closes span) :: log))

namespace Told

variable {E : Etiquette B N Span} {spans : List Span} {log log' : List (Event (Noted B N Span))}

theorem append (h : Told E spans log) (h' : Told E spans log') : Told E spans (log ++ log') := by
  induction h with
  | nil => exact h'
  | call hwithin _ ih =>
    rw [List.cons_append, List.append_assoc]
    exact .call hwithin (ih h')
  | note hmay _ ih => exact .note hmay (ih h')
  | span hinside _ _ ih =>
    rw [List.cons_append, List.append_assoc, List.cons_append]
    exact .span hinside (ih h')

/-- A call of which one note is due. -/
theorem call_one {event : Event B} {note : N} (hwithin : E.within spans event.1)
    (hdue : E.due event = [note]) (h : Told E spans log) :
    Told E spans (calling event :: telling (.note note) :: log) := by
  have hcall := Told.call hwithin h
  rw [hdue] at hcall
  exact hcall

/-- A call of which nothing is due. -/
theorem call_quiet {event : Event B} (hwithin : E.within spans event.1) (hdue : E.due event = [])
    (h : Told E spans log) : Told E spans (calling event :: log) := by
  have hcall := Told.call hwithin h
  rw [hdue] at hcall
  exact hcall

/-- Notes that may be told, one after another. -/
theorem tellings {list : List N} (hmay : ∀ note ∈ list, E.may spans note) (h : Told E spans log) :
    Told E spans (Lib.tellings list ++ log) := by
  induction list with
  | nil => exact h
  | cons first list ih =>
    refine .note (hmay first List.mem_cons_self) (ih fun other hother => ?_)
    exact hmay other (List.mem_cons_of_mem _ hother)

/-- What more may be told is told well, too. -/
theorem mono {may : List Span → N → Prop} (hmay : ∀ spans note, E.may spans note → may spans note)
    (h : Told E spans log) : Told { E with may := may } spans log := by
  induction h with
  | nil spans => exact .nil spans
  | call hwithin _ ih =>
    exact call (E := { E with may := may }) hwithin ih
  | note hnote _ ih => exact .note (hmay _ _ hnote) ih
  | span _ _ ihinside ih => exact .span ihinside ih

/-- A program that goes on unless an error has come of its first part. -/
theorem orReturn {α β ε ε' : Type} {into : ε → ε'} {program : Prog (Noted B N Span) (Except ε α)}
    {rest : α → Prog (Noted B N Span) (Except ε' β)} {result : Except ε' β}
    (hprogram : ∀ log outcome, Prog.Runs program log outcome → Told E spans log)
    (hrest : ∀ value log outcome, Prog.Runs (rest value) log outcome → Told E spans log)
    (h : Prog.Runs (program.orReturn into rest) log result) : Told E spans log := by
  obtain ⟨before, after, outcome, rfl, hbefore, hafter⟩ := Prog.runs_bind_iff.mp h
  refine (hprogram before outcome hbefore).append ?_
  cases outcome with
  | ok value => exact hrest value after result hafter
  | error error =>
    obtain ⟨rfl, _⟩ := Prog.runs_pure_iff.mp hafter
    exact .nil spans

/-- Where nothing else may be told, what is told is what is due. -/
theorem notes_eq (hmay : ∀ spans note, ¬ E.may spans note) (h : Told E spans log) :
    notes log = (calls log).flatMap E.due := by
  induction h with
  | nil => rfl
  | call _ _ ih =>
    rw [notes_calling, notes_tellings, calls_calling, calls_tellings, List.flatMap_cons, ih]
  | note hnote => exact absurd hnote (hmay _ _)
  | span _ _ ihinside ih =>
    rw [notes_opens, calls_telling, notes_append, notes_closes, calls_append, calls_telling,
      List.flatMap_append, ihinside, ih]

/-- The notes that are due of all that is told: those of the calls, each once and in order. -/
theorem filter_notes {owed : N → Bool} (h : Told E spans log)
    (hdue : ∀ event, ∀ note ∈ E.due event, owed note = true)
    (hmay : ∀ spans note, E.may spans note → owed note = false) :
    (notes log).filter owed = (calls log).flatMap E.due := by
  induction h with
  | nil => rfl
  | call _ _ ih =>
    rw [notes_calling, notes_tellings, calls_calling, calls_tellings, List.filter_append, ih,
      List.filter_eq_self.mpr (hdue _), List.flatMap_cons]
  | note hnote _ ih =>
    rw [notes_note, calls_telling, List.filter_cons_of_neg (by rw [hmay _ _ hnote]; simp), ih]
  | span _ _ ihinside ih =>
    rw [notes_opens, calls_telling, notes_append, notes_closes, calls_append, calls_telling,
      List.filter_append, ihinside, ih, List.flatMap_append]

end Told

end QuizArena.Lib
