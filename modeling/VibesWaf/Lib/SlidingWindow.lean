import Mathlib.Algebra.Order.Group.Unbundled.Int
import Mathlib.Data.List.Basic
import VibesWaf.Lib.FiniteMap

/-!
# Sliding windows

A list of times is read through a window that ends at the present: `recent` keeps the times that lie
in it. Time moves on, so a time that has left the window does not come back, and it makes no
difference whether it was dropped before. `SameRecent` is this indifference: two lists that look the
same through every later window.
-/

namespace VibesWaf.SlidingWindow

/-- The times within a window that ends at `now`. -/
def recent (window now : ℤ) (times : List ℤ) : List ℤ :=
  times.filter fun t => now - t < window

/-- Two lists look the same from `now` on. -/
def SameRecent (window now : ℤ) (times times' : List ℤ) : Prop :=
  ∀ later, now ≤ later → recent window later times = recent window later times'

variable {window now later : ℤ} {times times' : List ℤ}

theorem recent_append (window now : ℤ) (times times' : List ℤ) :
    recent window now (times ++ times') = recent window now times ++ recent window now times' :=
  List.filter_append ..

theorem length_recent_le (window now : ℤ) (times : List ℤ) :
    (recent window now times).length ≤ times.length :=
  List.length_filter_le _ _

/-- What has left the window does not come back. -/
theorem recent_recent (hle : now ≤ later) (times : List ℤ) :
    recent window later (recent window now times) = recent window later times := by
  unfold recent
  rw [List.filter_filter]
  refine List.filter_congr fun t _ => ?_
  have himp : later - t < window → now - t < window := by omega
  simpa using himp

namespace SameRecent

theorem refl (window now : ℤ) (times : List ℤ) : SameRecent window now times times :=
  fun _ _ => rfl

theorem symm (h : SameRecent window now times times') : SameRecent window now times' times :=
  fun later hle => (h later hle).symm

theorem trans {times'' : List ℤ} (h : SameRecent window now times times')
    (h' : SameRecent window now times' times'') : SameRecent window now times times'' :=
  fun later hle => (h later hle).trans (h' later hle)

/-- Time moves on. -/
theorem mono (h : SameRecent window now times times') (hle : now ≤ later) :
    SameRecent window later times times' :=
  fun l hl => h l (hle.trans hl)

theorem eq (h : SameRecent window now times times') :
    recent window now times = recent window now times' :=
  h now le_rfl

theorem append (h : SameRecent window now times times') (added : List ℤ) :
    SameRecent window now (times ++ added) (times' ++ added) := by
  intro later hle
  rw [recent_append, recent_append, h later hle]

end SameRecent

/-- Dropping the times that have left the window makes no difference. -/
theorem sameRecent_recent (window now : ℤ) (times : List ℤ) :
    SameRecent window now (recent window now times) times :=
  fun _ hle => recent_recent hle times

/-- A pass over a map drops the timestamps that have left the window, and the keys that have no
others. A key that is absent has no timestamps. -/
theorem getD_lookup_filterMap_recent {κ : Type*} (window now : ℤ) (m : FiniteMap κ (List ℤ))
    (key : κ) :
    ((m.filterMap fun _ ts =>
        let kept := recent window now ts
        if kept = [] then none else some kept).lookup key).getD [] =
      recent window now ((m.lookup key).getD []) := by
  rw [FiniteMap.lookup_filterMap]
  cases m.lookup key with
  | none => rfl
  | some ts =>
    change (if recent window now ts = [] then none else some _).getD [] = recent window now ts
    split
    · exact Eq.symm ‹_›
    · rfl

end VibesWaf.SlidingWindow
