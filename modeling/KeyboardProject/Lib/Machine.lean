/-
Machines that answer a sequence of events with a sequence of outputs, and the rule for what holds of
a whole run: it holds at the start, and every step keeps it.
-/
import Mathlib.Tactic

/-- A machine over states `σ`, events `ε` and outputs `ω`. -/
structure Machine (σ ε ω : Type) where
  step : σ → ε → σ × List ω

namespace Machine

variable {σ ε ω : Type} (M : Machine σ ε ω)

/-- The state after a sequence of events, and everything put out on the way. -/
def run : σ → List ε → σ × List ω
  | s, [] => (s, [])
  | s, e :: es => ((run (M.step s e).1 es).1, (M.step s e).2 ++ (run (M.step s e).1 es).2)

@[simp] theorem run_nil (s : σ) : M.run s [] = (s, []) := rfl

theorem run_cons (s : σ) (e : ε) (es : List ε) :
    M.run s (e :: es) = ((M.run (M.step s e).1 es).1, (M.step s e).2 ++ (M.run (M.step s e).1 es).2) := rfl

theorem run_append (s : σ) (es es' : List ε) :
    M.run s (es ++ es') = ((M.run (M.run s es).1 es').1, (M.run s es).2 ++ (M.run (M.run s es).1 es').2) := by
  induction es generalizing s with
  | nil => simp
  | cons e es ih => simp [run_cons, ih]

theorem run_concat (s : σ) (es : List ε) (e : ε) :
    M.run s (es ++ [e]) = ((M.step (M.run s es).1 e).1, (M.run s es).2 ++ (M.step (M.run s es).1 e).2) := by
  rw [run_append, run_cons, run_nil, List.append_nil]

/-- If every step of one machine is the image of a step of another, so is every run. -/
theorem run_map {σ' ε' ω' : Type} {N : Machine σ' ε' ω'} {f : σ → σ'} {g : ε → ε'} {h : ω → ω'}
    (hstep : ∀ s e, N.step (f s) (g e) = (f (M.step s e).1, (M.step s e).2.map h)) (s : σ) (es : List ε) :
    N.run (f s) (es.map g) = (f (M.run s es).1, (M.run s es).2.map h) := by
  induction es generalizing s with
  | nil => rfl
  | cons e es ih => rw [List.map_cons, run_cons, run_cons, hstep, ih, List.map_append]

/-- If one machine ignores the events that mean nothing to another and takes the steps of the other on the
rest, so do their runs. -/
theorem run_filterMap {σ' ε' ω' : Type} {N : Machine σ' ε' ω'} {f : σ' → σ} {g : ε' → Option ε} {h : ω → ω'}
    (hskip : ∀ s e, g e = none → f (N.step s e).1 = f s ∧ (N.step s e).2 = [])
    (hstep : ∀ s e e', g e = some e' →
      f (N.step s e).1 = (M.step (f s) e').1 ∧ (N.step s e).2 = (M.step (f s) e').2.map h) (s : σ') (es : List ε') :
    f (N.run s es).1 = (M.run (f s) (es.filterMap g)).1 ∧ (N.run s es).2 = (M.run (f s) (es.filterMap g)).2.map h := by
  induction es generalizing s with
  | nil => exact ⟨rfl, rfl⟩
  | cons e es ih =>
    obtain ⟨hstate, hout⟩ := ih (N.step s e).1
    rw [run_cons]
    cases he : g e with
    | none =>
      obtain ⟨hsame, hnone⟩ := hskip s e he
      rw [List.filterMap_cons_none he, hnone, List.nil_append, ← hsame]
      exact ⟨hstate, hout⟩
    | some e' =>
      obtain ⟨hnext, hputs⟩ := hstep s e e' he
      rw [List.filterMap_cons_some he, run_cons, hputs, List.map_append, ← hnext]
      exact ⟨hstate, by rw [hout]⟩

/-- If a reader that knows what `view` shows of a state can follow what every step puts out, it can follow every
run. -/
theorem run_foldlM {κ : Type} {read : κ → ω → Option κ} {view : σ → κ}
    (hstep : ∀ s e, (M.step s e).2.foldlM read (view s) = some (view (M.step s e).1)) (s : σ) (es : List ε) :
    (M.run s es).2.foldlM read (view s) = some (view (M.run s es).1) := by
  induction es generalizing s with
  | nil => rfl
  | cons e es ih =>
    rw [run_cons, List.foldlM_append, hstep]
    exact ih _

/-- Every step of a run meets the condition `C` on what was put out before it, the state and the
event. `os` is what was put out before the run. -/
def Along (C : List ω → σ → ε → Prop) : List ω → σ → List ε → Prop
  | _, _, [] => True
  | os, s, e :: es => C os s e ∧ Along C (os ++ (M.step s e).2) (M.step s e).1 es

instance decidableAlong (C : List ω → σ → ε → Prop) [∀ os s e, Decidable (C os s e)] :
    ∀ (os : List ω) (s : σ) (es : List ε), Decidable (M.Along C os s es)
  | _, _, [] => isTrue trivial
  | os, s, e :: es =>
    have := decidableAlong C (os ++ (M.step s e).2) (M.step s e).1 es
    inferInstanceAs (Decidable (_ ∧ _))

variable {M}

/-- What holds before a run and is kept by every step that meets the condition holds after a run
whose steps all meet it. -/
theorem Along.invariant {C : List ω → σ → ε → Prop} {P : List ω → σ → Prop} {os : List ω} {s : σ} {es : List ε}
    (h : M.Along C os s es) (hinit : P os s)
    (hstep : ∀ os t e, P os t → C os t e → P (os ++ (M.step t e).2) (M.step t e).1) :
    P (os ++ (M.run s es).2) (M.run s es).1 := by
  induction es generalizing os s with
  | nil => simpa using hinit
  | cons e es ih =>
    rw [run_cons, ← List.append_assoc]
    exact ih h.2 (hstep os s e hinit h.1)

theorem Along.and {C D : List ω → σ → ε → Prop} {os : List ω} {s : σ} {es : List ε} (hC : M.Along C os s es)
    (hD : M.Along D os s es) : M.Along (fun os s e => C os s e ∧ D os s e) os s es := by
  induction es generalizing os s with
  | nil => trivial
  | cons e es ih => exact ⟨⟨hC.1, hD.1⟩, ih hC.2 hD.2⟩

theorem along_true (os : List ω) (s : σ) (es : List ε) : M.Along (fun _ _ _ => True) os s es := by
  induction es generalizing os s with
  | nil => trivial
  | cons e es ih => exact ⟨trivial, ih _ _⟩

/-- What holds at the start and is kept by every step holds after every run. -/
theorem invariant {P : List ω → σ → Prop} {s : σ} (hinit : P [] s)
    (hstep : ∀ os t e, P os t → P (os ++ (M.step t e).2) (M.step t e).1) (es : List ε) :
    P (M.run s es).2 (M.run s es).1 :=
  (along_true [] s es).invariant hinit fun os t e hP _ => hstep os t e hP

/-- A property of the state that a step never restores is lost in a run exactly by a step that does
not meet the condition, if from a state that has it the condition says which steps keep it. -/
theorem along_iff {C : List ω → σ → ε → Prop} {P : σ → Prop} (hmono : ∀ s e, P (M.step s e).1 → P s)
    (hstep : ∀ os s e, P s → (C os s e ↔ P (M.step s e).1)) {os : List ω} {s : σ} (es : List ε) (hs : P s) :
    M.Along C os s es ↔ P (M.run s es).1 := by
  -- what a run ends with it started with: no step restores `P`
  have hrun : ∀ (es : List ε) (s : σ), P (M.run s es).1 → P s := by
    intro es
    induction es with
    | nil => exact fun s h => h
    | cons e es ih => exact fun s h => hmono s e (ih _ h)
  induction es generalizing os s with
  | nil => exact iff_of_true trivial hs
  | cons e es ih =>
    rw [Along, hstep os s e hs, run_cons]
    constructor
    · rintro ⟨he, hes⟩; exact (ih he).1 hes
    · intro h; exact ⟨hrun es _ h, (ih (hrun es _ h)).2 h⟩

end Machine
