import Kannel.Lib.Avoids

/-!
# Runs of a machine

A partial step function and its runs. `Run.invariant` is the induction every safety proof uses;
`Run.iff_where` says when a condition on steps is exact.
-/

namespace Machine
open List
variable {σ ℓ : Type} {step : σ → ℓ → Option σ}

/-- `Run step s₀ trace s`: the steps of `trace` lead from `s₀` to `s`. -/
inductive Run (step : σ → ℓ → Option σ) (s₀ : σ) : List (σ × ℓ) → σ → Prop
  | start : Run step s₀ [] s₀
  | next {trace : List (σ × ℓ)} {s s' : σ} {a : ℓ} :
      Run step s₀ trace s → step s a = some s' → Run step s₀ (trace ++ [(s, a)]) s'

variable {s s₀ : σ} {trace : List (σ × ℓ)}

theorem of_bind_bind {α β : Type} {x : Option α} {f : α → Option β} {g : α → β → Option σ}
    (h : (x.bind fun a => (f a).bind (g a)) = some s) :
    ∃ a b, x = some a ∧ f a = some b ∧ g a b = some s := by
  obtain ⟨a, ha, h⟩ := Option.bind_eq_some_iff.mp h
  obtain ⟨b, hb, h⟩ := Option.bind_eq_some_iff.mp h
  exact ⟨a, b, ha, hb, h⟩

variable {s' : σ}

theorem of_guard {P : Prop} [Decidable P] (h : (if P then some s else none) = some s') :
    P ∧ s = s' := by
  obtain ⟨hP, h⟩ := Option.ite_none_right_eq_some.mp h
  exact ⟨hP, Option.some.inj h⟩

section
variable (hrun : Run step s₀ trace s)
include hrun

/-- A property of the first state that every step keeps holds in every state. -/
theorem Run.invariant {I : σ → Prop} (h₀ : I s₀)
    (hstep : ∀ s a s', I s → step s a = some s' → I s') : I s := by
  induction hrun with
  | start => exact h₀
  | next _ hs ih => exact hstep _ _ _ ih hs

variable {C : σ → ℓ → Prop}

/-- The same along the runs that meet a condition throughout. -/
theorem Run.invariant_where {I : σ → Prop} (h₀ : I s₀)
    (hstep : ∀ s a s', I s → C s a → step s a = some s' → I s') (hC : ∀ p ∈ trace, C p.1 p.2) :
    I s := by
  induction hrun with
  | start => exact h₀
  | @next trace s s' a _ hs ih =>
    have hlast : C s a := hC (s, a) (by simp)
    exact hstep s a s' (ih fun p hp => hC p (mem_append_left _ hp)) hlast hs

variable {I P : σ → Prop}

/-- If every step keeps or breaks a property according to a condition, and nothing mends it, it
holds at the end exactly if all steps met the condition. -/
theorem Run.iff_where (hI₀ : I s₀) (hP₀ : P s₀) (hI : ∀ s a s', I s → step s a = some s' → I s')
    (hstep : ∀ s a s', I s → step s a = some s' → (P s' ↔ P s ∧ C s a)) :
    P s ↔ ∀ p ∈ trace, C p.1 p.2 := by
  induction hrun with
  | start => simpa using hP₀
  | @next trace s s' a hrun hs ih =>
    rw [hstep s a s' (hrun.invariant hI₀ hI) hs, ih]
    simp only [forall_mem_append, forall_mem_singleton]

/-- If an invariant gives a property, is kept by the steps that meet a condition, and every
other step breaks the property at once, then it holds throughout exactly if all steps met the
condition. -/
theorem Run.throughout_iff_of_invariant (hI₀ : I s₀) (hIP : ∀ s, I s → P s)
    (hkeep : ∀ s a s', I s → C s a → step s a = some s' → I s')
    (hbreak : ∀ s a s', I s → ¬ C s a → step s a = some s' → ¬ P s') :
    ((∀ p ∈ trace, P p.1) ∧ P s) ↔ ∀ p ∈ trace, C p.1 p.2 := by
  induction hrun with
  | start => simpa using hIP s₀ hI₀
  | @next trace s s' a hrun hs ih =>
    rw [forall_mem_append, forall_mem_singleton, forall_mem_append, forall_mem_singleton, ih]
    constructor
    · rintro ⟨hbefore, hP'⟩
      refine ⟨hbefore, ?_⟩
      by_contra hC
      exact hbreak s a s' (hrun.invariant_where hI₀ hkeep hbefore) hC hs hP'
    · rintro ⟨hbefore, hC⟩
      refine ⟨hbefore, hIP s' ?_⟩
      exact hkeep s a s' (hrun.invariant_where hI₀ hkeep hbefore) hC hs

/-- In all states of a run, for a property that may come back after it was broken. -/
theorem Run.throughout_iff_where {P : σ → Prop} (hP₀ : P s₀)
    (hstep : ∀ s a s', P s → step s a = some s' → (P s' ↔ C s a)) :
    ((∀ p ∈ trace, P p.1) ∧ P s) ↔ ∀ p ∈ trace, C p.1 p.2 :=
  hrun.throughout_iff_of_invariant hP₀ (fun _ hP => hP)
    (fun s a s' hP hC hs => (hstep s a s' hP hs).mpr hC)
    fun s a s' hP hC hs hP' => hC ((hstep s a s' hP hs).mp hP')

end

def exec (step : σ → ℓ → Option σ) : σ → List ℓ → Option (List (σ × ℓ) × σ)
  | s, [] => some ([], s)
  | s, a :: as =>
    (step s a).bind fun s' => (exec step s' as).map fun r => ((s, a) :: r.1, r.2)

theorem Run.append {trace' : List (σ × ℓ)} (hrun : Run step s₀ trace s)
    (hrun' : Run step s trace' s') : Run step s₀ (trace ++ trace') s' := by
  induction hrun' with
  | start => rwa [append_nil]
  | next _ hs ih =>
    rw [← append_assoc]
    exact ih.next hs

theorem run_of_exec {as : List ℓ} (h : exec step s as = some (trace, s')) :
    Run step s trace s' := by
  induction as generalizing s trace with
  | nil =>
    cases h
    exact .start
  | cons a as ih =>
    obtain ⟨s₁, hs₁, hrest⟩ := Option.bind_eq_some_iff.mp h
    obtain ⟨r, hr, hpair⟩ := Option.map_eq_some_iff.mp hrest
    cases hpair
    exact (Run.start.next hs₁).append (ih hr)

theorem exists_run {p : List (σ × ℓ) → σ → Prop} (as : List ℓ)
    (h : ∃ r, exec step s₀ as = some r ∧ p r.1 r.2) :
    ∃ trace s, Run step s₀ trace s ∧ p trace s := by
  obtain ⟨⟨trace, s⟩, hexec, hp⟩ := h
  exact ⟨trace, s, run_of_exec hexec, hp⟩

end Machine
