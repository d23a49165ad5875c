import Mathlib.Algebra.Ring.Nat
import QuizArena.Lib.Transition

/-!
# Traces that take time

Every label takes some time, most of them none. The timeline of a trace says which of
its notable labels came when.
-/

namespace QuizArena.Lib

variable {State Label : Type} (duration : Label → Nat) (notable : Label → Bool)

/-- The time that labels take. -/
def elapsed (labels : List Label) : Nat := (labels.map duration).sum

@[simp] theorem elapsed_cons (label : Label) (labels : List Label) :
    elapsed duration (label :: labels) = duration label + elapsed duration labels := rfl

@[simp] theorem elapsed_append (labels labels' : List Label) :
    elapsed duration (labels ++ labels') = elapsed duration labels + elapsed duration labels' := by
  rw [elapsed, List.map_append, List.sum_append]
  rfl

/-- The notable labels and the times at which they come, from a time on. -/
def timelineFrom : Nat → List Label → List (Nat × Label)
  | _, [] => []
  | now, label :: labels =>
    if notable label then (now, label) :: timelineFrom (now + duration label) labels
    else timelineFrom (now + duration label) labels

/-- The notable labels of a trace and their times. -/
def timeline (labels : List Label) : List (Nat × Label) := timelineFrom duration notable 0 labels

theorem timelineFrom_append (now : Nat) (labels labels' : List Label) :
    timelineFrom duration notable now (labels ++ labels') =
      timelineFrom duration notable now labels ++
        timelineFrom duration notable (now + elapsed duration labels) labels' := by
  induction labels generalizing now with
  | nil => rfl
  | cons label labels ih =>
    rw [List.cons_append, timelineFrom, timelineFrom, ih, elapsed_cons, Nat.add_assoc]
    split <;> rfl

theorem timeline_append (labels labels' : List Label) :
    timeline duration notable (labels ++ labels') = timeline duration notable labels ++
      timelineFrom duration notable (elapsed duration labels) labels' := by
  rw [timeline, timelineFrom_append, Nat.zero_add]
  rfl

/-- A step that is notable comes last, at the time that has gone by. -/
theorem timeline_snoc {label : Label} (labels : List Label) (h : notable label = true) :
    timeline duration notable (labels ++ [label]) =
      timeline duration notable labels ++ [(elapsed duration labels, label)] := by
  rw [timeline_append, timelineFrom, if_pos h]
  rfl

theorem timeline_snoc_of_not {label : Label} (labels : List Label) (h : notable label = false) :
    timeline duration notable (labels ++ [label]) = timeline duration notable labels := by
  rw [timeline_append, timelineFrom, h]
  exact List.append_nil _

theorem map_snd_timelineFrom (now : Nat) (labels : List Label) :
    (timelineFrom duration notable now labels).map Prod.snd = labels.filter notable := by
  induction labels generalizing now with
  | nil => rfl
  | cons label labels ih =>
    rw [timelineFrom]
    cases h : notable label with
    | true => simp [h, ih]
    | false => simp [h, ih]

/-- The timeline has the notable labels in their order. -/
theorem map_snd_timeline (labels : List Label) :
    (timeline duration notable labels).map Prod.snd = labels.filter notable :=
  map_snd_timelineFrom duration notable 0 labels

end QuizArena.Lib
