import Mathlib.Tactic

/-!
# Consumers of a stream that arrives in pieces

A consumer takes items from the front of what is buffered, or waits. A `Stable` one does not
notice how its stream is cut (`Fed.steps`, `Fed.exact`).
-/

namespace Consumer
open List
variable {σ β : Type}

/-- The consumer's decisions do not depend on what comes behind the items it
takes. -/
structure Stable (step : σ → List β → Option (σ × List β)) : Prop where
  suffix : ∀ {s s' : σ} {buf rest : List β}, step s buf = some (s', rest) → rest <:+ buf
  append : ∀ {s s' : σ} {buf rest : List β} (more : List β), step s buf = some (s', rest) →
    step s (buf ++ more) = some (s', rest ++ more)

def Next (step : σ → List β → Option (σ × List β)) (x y : σ × List β) : Prop :=
  step x.1 x.2 = some y

def Steps (step : σ → List β → Option (σ × List β)) : σ × List β → σ × List β → Prop :=
  Relation.ReflTransGen (Next step)

/-- From `s` the consumer takes exactly `message` and gets to `g`, whatever
follows. -/
def Consumes (step : σ → List β → Option (σ × List β)) (s : σ) (message : List β) (g : σ) : Prop :=
  ∀ more, Steps step (s, message ++ more) (g, more)

/-- Reading moves pending items to the end of the buffer, taking is a step of
the consumer on the buffer. -/
inductive Move (step : σ → List β → Option (σ × List β)) :
    σ × List β × List β → σ × List β × List β → Prop
  | read (s : σ) (buf got pending : List β) :
      Move step (s, buf, got ++ pending) (s, buf ++ got, pending)
  | take {s s' : σ} {buf rest : List β} (pending : List β) :
      step s buf = some (s', rest) → Move step (s, buf, pending) (s', rest, pending)

def Fed (step : σ → List β → Option (σ × List β)) :
    σ × List β × List β → σ × List β × List β → Prop :=
  Relation.ReflTransGen (Move step)

variable {step : σ → List β → Option (σ × List β)}

theorem Steps.refl (x : σ × List β) : Steps step x x := Relation.ReflTransGen.refl

variable {x y z : σ × List β}

theorem Steps.trans (h : Steps step x y) (h' : Steps step y z) : Steps step x z :=
  Relation.ReflTransGen.trans h h'

theorem Steps.total (hy : Steps step x y) (hz : Steps step x z) :
    Steps step y z ∨ Steps step z y := by
  refine Relation.ReflTransGen.total_of_right_unique ?_ hy hz
  intro a b c hb hc
  exact Option.some.inj (hb.symm.trans hc)

theorem Steps.eq_of_stuck {s : σ} {buf : List β} {y : σ × List β}
    (h : Steps step (s, buf) y) (hstuck : step s buf = none) : y = (s, buf) := by
  rcases Relation.ReflTransGen.cases_head h with heq | ⟨z, hz, -⟩
  · exact heq.symm
  · have hz' : step s buf = some z := hz
    rw [hstuck] at hz'
    cases hz'

theorem Steps.append (hst : Stable step) {s s' : σ} {buf rest : List β}
    (h : Steps step (s, buf) (s', rest)) (more : List β) :
    Steps step (s, buf ++ more) (s', rest ++ more) := by
  have hgen : ∀ x y : σ × List β, Steps step x y →
      Steps step (x.1, x.2 ++ more) (y.1, y.2 ++ more) := by
    intro x y hxy
    induction hxy with
    | refl => exact Steps.refl _
    | tail _ hlast ih => exact ih.tail (hst.append more hlast)
  exact hgen _ _ h

theorem Consumes.refl (s : σ) : Consumes step s [] s := fun _ => Steps.refl _

theorem Consumes.trans {s t g : σ} {message message' : List β}
    (h : Consumes step s message t) (h' : Consumes step t message' g) :
    Consumes step s (message ++ message') g := by
  intro more
  rw [append_assoc]
  exact (h _).trans (h' more)

theorem Consumes.of_step {s t : σ} {message : List β}
    (h : ∀ more, step s (message ++ more) = some (t, more)) : Consumes step s message t :=
  fun more => Relation.ReflTransGen.single (h more)

theorem Fed.refl (x : σ × List β × List β) : Fed step x x := Relation.ReflTransGen.refl

theorem Fed.trans {x y z : σ × List β × List β} (h : Fed step x y) (h' : Fed step y z) :
    Fed step x z :=
  Relation.ReflTransGen.trans h h'

variable {buf pending buf' pending' : List β}

/-- **The cuts do not matter.**  What has been taken was taken from the items
read so far, seen as one buffer. -/
theorem Fed.steps (hst : Stable step) {s s' : σ}
    (h : Fed step (s, buf, pending) (s', buf', pending')) :
    ∃ got, pending = got ++ pending' ∧ Steps step (s, buf ++ got) (s', buf') := by
  have hgen : ∀ y : σ × List β × List β, Fed step (s, buf, pending) y →
      ∃ got, pending = got ++ y.2.2 ∧ Steps step (s, buf ++ got) (y.1, y.2.1) := by
    intro y hy
    induction hy with
    | refl => exact ⟨[], rfl, by rw [append_nil]; exact Steps.refl _⟩
    | tail _ hlast ih =>
      obtain ⟨got, hgot, hsteps⟩ := ih
      cases hlast with
      | read t b new rest =>
        refine ⟨got ++ new, by rw [hgot, append_assoc], ?_⟩
        rw [← append_assoc]
        exact hsteps.append hst new
      | take rest hstep => exact ⟨got, hgot, hsteps.tail hstep⟩
  exact hgen _ h

/-- **Exactness.**  A waiting consumer fed the beginning of `message ++ further` has halted in
`g` with just `further` left if the whole message has been read; otherwise it has not, and would
go on. -/
theorem Fed.exact (hst : Stable step) {s g s' : σ} {message further : List β}
    (hg : ∀ b, step g b = none) (hmessage : Consumes step s message g)
    (hstream : buf ++ pending = message ++ further)
    (hfed : Fed step (s, buf, pending) (s', buf', pending')) (hwait : step s' buf' = none) :
    (pending'.length ≤ further.length ∧ s' = g ∧ buf' ++ pending' = further) ∨
      (further.length < pending'.length ∧ s' ≠ g ∧ step s' (buf' ++ pending') ≠ none) := by
  obtain ⟨got, hgot, hsteps⟩ := hfed.steps hst
  have hread : (buf ++ got) ++ pending' = message ++ further := by
    rw [append_assoc, ← hgot, hstream]
  have hlen := congrArg List.length hread
  simp only [length_append] at hlen
  -- on the whole stream the consumer still has the way to `g` in front of it
  have hwhole : Steps step (s', buf' ++ pending') (g, further) := by
    have hfull := hsteps.append hst pending'
    rw [hread] at hfull
    rcases hfull.total (hmessage further) with hahead | hback
    · exact hahead
    · rw [hback.eq_of_stuck (hg further)]
      exact Steps.refl _
  by_cases hle : pending'.length ≤ further.length
  · -- the message is in what was read, so the run on it ends in `g` as well
    refine .inl ⟨hle, ?_⟩
    have hpre : message <+: buf ++ got := by
      refine prefix_of_prefix_length_le ⟨further, rfl⟩ ⟨pending', hread⟩ ?_
      simp only [length_append]
      omega
    obtain ⟨tail, htail⟩ := hpre
    have hdone : Steps step (s, buf ++ got) (g, tail) := htail ▸ hmessage tail
    have hsame : (s', buf') = (g, tail) := by
      rcases hsteps.total hdone with hahead | hback
      · exact (hahead.eq_of_stuck hwait).symm
      · exact hback.eq_of_stuck (hg tail)
    obtain ⟨rfl, rfl⟩ := Prod.mk.inj hsame
    refine ⟨rfl, ?_⟩
    rw [← htail, append_assoc] at hread
    exact append_cancel_left hread
  · refine .inr ⟨by omega, ?_, ?_⟩
    · -- in `g` exactly `further` would be left, which is too short
      rintro rfl
      have hleft := hwhole.eq_of_stuck (hg _)
      have hfurther : further = buf' ++ pending' := congrArg Prod.snd hleft
      rw [hfurther, length_append] at hle
      omega
    · intro hnone
      have hleft := hwhole.eq_of_stuck hnone
      have hfurther : further = buf' ++ pending' := congrArg Prod.snd hleft
      rw [hfurther, length_append] at hle
      omega

end Consumer
