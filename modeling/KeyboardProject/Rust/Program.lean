/-
Programs that write files. A program takes the files it finds to those it leaves and the way it ends; a panic leaves
the files that were written before it.
-/
import Mathlib.Logic.Function.Basic
import KeyboardProject.Rust.Str

namespace Rust

/-- The contents of the files, by their path. -/
abbrev Disk := Str → Option Str

def Program (ε α : Type) : Type := Disk → Disk × Outcome ε α

namespace Program

variable {ε α β : Type}

/-- A call that writes no file. -/
def call (x : Outcome ε α) : Program ε α := fun disk => (disk, x)

protected def bind (x : Program ε α) (f : α → Program ε β) : Program ε β := fun disk =>
  match x disk with
  | (disk, .ok a) => f a disk
  | (disk, .err e) => (disk, .err e)
  | (disk, .panic) => (disk, .panic)

instance : Monad (Program ε) where
  pure a := call (.ok a)
  bind := Program.bind

/-- `fs::write(path, contents).expect(..)`. -/
def write (canWrite : Str → Bool) (path contents : Str) : Program ε Unit := fun disk =>
  if canWrite path then (Function.update disk path (some contents), .ok ()) else (disk, .panic)

/-! ## Reading a sequence apart -/

variable {x : Program ε α} {f : α → Program ε β} {disk disk' : Disk} {canWrite : Str → Bool} {path contents : Str}

theorem bind_ok {a : α} (h : x disk = (disk', .ok a)) : (x >>= f) disk = f a disk' := by
  show Program.bind x f disk = _
  rw [Program.bind, h]

theorem bind_panic (h : x disk = (disk', .panic)) : (x >>= f) disk = (disk', .panic) := by
  show Program.bind x f disk = _
  rw [Program.bind, h]

/-- A sequence ends well when each part of it does. -/
theorem bind_eq_ok {b : β} : ((x >>= f) disk).2 = .ok b ↔ ∃ a, (x disk).2 = .ok a ∧ (f a (x disk).1).2 = .ok b := by
  show (Program.bind x f disk).2 = _ ↔ _
  unfold Program.bind
  obtain ⟨mid, outcome⟩ := x disk
  cases outcome <;> simp

@[simp] theorem call_apply (y : Outcome ε α) (disk : Disk) : call y disk = (disk, y) := rfl

theorem write_ok (h : canWrite path = true) :
    (write canWrite path contents : Program ε Unit) disk = (Function.update disk path (some contents), .ok ()) := if_pos h

theorem write_eq_ok {u : Unit} :
    ((write canWrite path contents : Program ε Unit) disk).2 = .ok u ↔ canWrite path = true := by
  unfold write
  split_ifs with h <;> simp [h]

end Program

end Rust
