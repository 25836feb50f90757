import ScriptMachine.Proofs.Instruction

/-!
# Sequences of steps

A part of the execution of a body, given by the machines before each of its steps. A loop that
succeeds has executed such a sequence.

* `Trail` – steps that succeed one after the other.
* `RunM.exists_trail_of_loop` – the steps of a loop.
-/

namespace ScriptMachine

variable {σ : Type} {b : Budget σ}

/-- Steps that succeed one after the other, with the machine before each of them. -/
inductive Trail (b : Budget σ) : World σ → List (Machine σ) → World σ → Prop where
  | refl (w : World σ) : Trail b w [] w
  | step {w v w' : World σ} {back : Bool} {ms : List (Machine σ)}
      (h : RunM.step b w = some (.ok back, v)) (t : Trail b v ms w') :
      Trail b w (w.machine :: ms) w'

/-- A sequence of steps can be continued. -/
theorem Trail.append {w v w' : World σ} {ms ns : List (Machine σ)} (h : Trail b w ms v)
    (h' : Trail b v ns w') : Trail b w (ms ++ ns) w' := by
  induction h with
  | refl => exact h'
  | step hs _ ih => exact .step hs (ih h')

/-- A loop that succeeds has executed a sequence of steps. -/
theorem RunM.exists_trail_of_loop {w w' : World σ} (h : loop b w = some (.ok (), w')) :
    ∃ ms, Trail b w ms w' := by
  -- the steps so far, and one more
  have hI : ∀ {v v' : World σ}, (∃ ms, Trail b w ms v) → step b v = some (.ok false, v') →
      ∃ ms, Trail b w ms v' := by
    rintro v v' ⟨ms, ht⟩ hs
    exact ⟨_, ht.append (.step hs (.refl v'))⟩
  obtain ⟨v, ⟨ms, ht⟩, ⟨hs, -⟩ | ⟨e, -, he⟩⟩ := exists_last_step hI ⟨[], .refl w⟩ h
  · exact ⟨_, ht.append (.step hs (.refl w'))⟩
  · cases he

end ScriptMachine
