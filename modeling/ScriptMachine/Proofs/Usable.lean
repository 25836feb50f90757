import ScriptMachine.Execution.Routine
import ScriptMachine.Proofs.Calls
import ScriptMachine.Proofs.Dispatch

/-!
# Calls and usable machines

Every way out of the execution loop looks at whether the machine is still usable. So a call that
succeeds leaves a usable machine, whatever its callbacks do and whichever errors they swallow, and a
call that fails was either refused before it did anything or leaves a machine that is unusable.

* `RunM.usable_of_step` – a step that succeeds leaves a usable machine usable.
* `RunM.call_outcome` – what a call leaves behind.
-/

namespace ScriptMachine

namespace Machine

variable {σ : Type} {m m' : Machine σ}

/-! ## What the operations around a call leave alone -/

theorem poison_pushResult (m : Machine σ) (v : Value) : (m.pushResult v).poison = m.poison := by
  rw [pushResult]
  split <;> rfl

/-- A call that begins has not failed. -/
theorem poison_beginCall (m : Machine σ) (f : Symbol) (args : List Value) :
    (m.beginCall f args).poison = m.poison := by
  rw [beginCall_eq]
  rfl

/-- A value that is popped leaves a usable machine usable. -/
theorem poison_of_popValue {k : Kind} {v : Value} (h : popValue k m = (.ok v, m')) :
    m'.poison = m.poison := by
  rcases hk : CellKind.ofKind? k with _ | c
  · rw [popValue, hk] at h
    obtain ⟨-, rfl⟩ := MachineM.eq_of_pure h
    rfl
  · rw [popValue, hk] at h
    obtain ⟨c, n, hp, hv⟩ := MachineM.bind_eq_ok.1 h
    obtain ⟨-, rfl⟩ := MachineM.eq_of_pure hv
    obtain ⟨e, rest, -, -, rfl⟩ := pop_ok hp
    rfl

/-- A result that is taken leaves a usable machine usable. -/
theorem poison_of_takeResult {f : Symbol} {k : Kind} {depth : Nat} {v : Value}
    (h : takeResult f k depth m = (.ok v, m')) : m'.poison = m.poison := by
  by_cases hk : k = .void
  · rw [takeResult, if_pos hk] at h
    obtain ⟨-, rfl⟩ := MachineM.eq_of_pure h
    rfl
  · rw [takeResult, if_neg hk, MachineM.get_bind] at h
    by_cases hd : m.stack.length ≤ depth
    · rw [if_pos hd] at h
      obtain ⟨-, rfl⟩ := Prod.mk.inj h
      rfl
    · rw [if_neg hd] at h
      exact poison_of_popValue h

/-- A result is given to a usable machine only. -/
theorem usable_of_giveResult {f : Symbol} {x : Binding σ} {v : Value} {u : Unit}
    (h : giveResult f x v m = (.ok u, m')) : m'.poison = none := by
  rcases giveResult_eq h with ⟨hu, -, -, rfl⟩ | ⟨e, he, -⟩
  · exact (poison_pushResult m v).trans (poison_of_ensureUsable hu)
  · cases he

end Machine

/-! ## Small scripts -/

/-- A function without parameters whose body begins at an address. -/
def Symbol.body (name : String) (index address : UInt32) : Symbol :=
  { Symbol.blank name index .func none with flags := .const, count := 0, address }

/-- A script that has not run yet, under a host without a state. -/
def World.fresh (symbols : List Symbol) (code : Code) : World Unit :=
  ⟨(), .new (.ofParts 50 symbols code) .default⟩

namespace RunM

open Machine

variable {σ : Type} {b : Budget σ} {w w' : World σ}

/-! ## Success means a usable machine -/

theorem usable_of_dispatched {f : Symbol} {x : Binding σ}
    (h : Dispatched b f x w (.ok ()) w') : w'.machine.poison = none := by
  cases h with
  | returned _ _ hg => exact usable_of_giveResult hg

theorem usable_of_defaulted {f : Symbol} {r : Except Error Unit} (h : Defaulted b f w r w')
    (hr : r = .ok ()) : w'.machine.poison = none := by
  cases h with
  | entries | failed => cases hr
  | returned | absent => exact poison_of_ensureUsable hr

/-- An external function that succeeds leaves a usable machine, whatever its callback did. -/
theorem usable_of_callExternal {i : UInt32} (h : callExternal b i w = some (.ok (), w')) :
    w'.machine.poison = none := by
  rcases callExternal_eq_some h with ⟨e, h, -⟩ | ⟨f, -, -, ⟨x, -, h⟩ | ⟨-, h⟩⟩
  · cases h
  · exact usable_of_dispatched h
  · exact usable_of_defaulted h rfl

/-- A replaced function that succeeds leaves a usable machine, whatever its callback did. -/
theorem usable_of_callOverride {i : UInt32} (h : callOverride b i w = some (.ok (), w')) :
    w'.machine.poison = none := by
  rcases callOverride_eq_some h with ⟨e, h, -⟩ | ⟨f, x, -, -, h⟩
  · cases h
  · exact usable_of_dispatched h

/-- A step that succeeds leaves a usable machine usable. -/
theorem usable_of_step {back : Bool} (h : step b w = some (.ok back, w'))
    (hw : w.machine.poison = none) : w'.machine.poison = none := by
  generalize hr : (.ok back : Except Error Bool) = r at h
  cases stepped_of_step h with
  | undecodable | fails => cases hr
  | proceeds | jumps | enters => exact hw
  | leaves => exact (leave_poison _).trans hw
  -- a function with a callback succeeds only if the machine is usable once the callback is done
  | @external _ _ s _ _ _ _ hc =>
    obtain rfl : s = .ok () := by cases s <;> first | rfl | cases hr
    exact usable_of_callExternal hc
  | @override _ _ _ s _ _ _ _ _ hc =>
    obtain rfl : s = .ok () := by cases s <;> first | rfl | cases hr
    exact usable_of_callOverride hc

/-- A loop that succeeds leaves a usable machine usable. -/
theorem usable_of_repeatStep {n : Nat} (h : repeatStep (step b) n w = some (.ok (), w'))
    (hw : w.machine.poison = none) : w'.machine.poison = none := by
  -- the machine is usable before every step, so before the last one too
  have hI : ∀ {v v' : World σ}, v.machine.poison = none → step b v = some (.ok false, v') →
      v'.machine.poison = none := fun hv hs => usable_of_step hs hv
  obtain ⟨v, hv, ⟨hs, -⟩ | ⟨e, -, he⟩⟩ := exists_last_step hI hw h
  · exact usable_of_step hs hv
  · cases he

/-- A body that succeeds leaves a usable machine usable. -/
theorem usable_of_runFunction {f a : UInt32} (h : runFunction b f a w = some (.ok (), w'))
    (hw : w.machine.poison = none) : w'.machine.poison = none := by
  cases runFunction_eq_some h with
  | left depth hl => exact usable_of_repeatStep hl hw

/-- A function that succeeds leaves a usable machine usable, however it is run. -/
theorem usable_of_invoke {f : Symbol} (h : invoke b f w = some (.ok (), w'))
    (hw : w.machine.poison = none) : w'.machine.poison = none := by
  rcases invoke_eq_some h with ⟨-, h⟩ | ⟨-, h⟩ | ⟨-, -, h⟩
  · exact usable_of_callOverride h
  · exact usable_of_callExternal h
  · exact usable_of_runFunction h hw

/-! ## Calls -/

/-- A call that succeeds leaves a usable machine. A call that fails either changed nothing and was
refused, or leaves a machine that is unusable. A call is refused whenever there is a cause to. This
holds of every budget, so whatever the callbacks of the host do, and whichever errors of nested
calls they swallow. -/
theorem call_outcome {key : SymbolKey} {args : List Value} {expected : Option Kind}
    {r : Except Error Value} (h : call b key args expected w = some (r, w')) :
    (∀ v, r = .ok v → w'.machine.isPoisoned = false) ∧
      (∀ e, r = .error e →
        w' = w ∧ Refusal w.machine key args expected e ∨ w'.machine.isPoisoned = true) ∧
      ∀ e, Refusal w.machine key args expected e →
        w' = w ∧ ∃ e', r = .error e' ∧ Refusal w.machine key args expected e' := by
  rcases call_eq_some h with hc | ⟨ha, hi⟩ | ⟨ha, hi, ht⟩ | ⟨ha, hi, ht⟩
  · refine ⟨fun v hv => (nomatch hv), fun e' he => .inl ⟨rfl, ?_⟩, fun _ _ => ⟨rfl, _, rfl, hc⟩⟩
    rwa [← Except.error.inj he]
  -- in the other cases the checks have passed
  · exact ⟨fun v hv => (nomatch hv), fun e he => .inr (isPoisoned_poisonWith _ _),
      fun e he => absurd ha he.not_accepts⟩
  · exact ⟨fun v hv => (nomatch hv), fun e he => .inr (isPoisoned_poisonWith _ _),
      fun e he => absurd ha he.not_accepts⟩
  · have hp := usable_of_invoke hi ((poison_beginCall _ _ _).trans ha.usable)
    exact ⟨fun v hv => isPoisoned_eq_false.2 ((poison_of_takeResult ht).trans hp),
      fun e he => (nomatch he), fun e he => absurd ha he.not_accepts⟩

/-- A body that returns at once is called, one without instructions makes the machine unusable, and
a function that is not there is refused. -/
theorem call_outcome_of_body :
    (∃ w', call ⟨Routine.runWithin 1, 2⟩ (.index 0) [] none (.fresh [.body "MAIN" 0 0] #[60]) =
        some (.ok .void, w') ∧ w'.machine.isPoisoned = false) ∧
      (∃ e w', call ⟨Routine.runWithin 1, 2⟩ (.index 0) [] none (.fresh [.body "MAIN" 0 0] #[]) =
        some (.error e, w') ∧ w'.machine.isPoisoned = true) ∧
      Refusal (World.fresh [.body "MAIN" 0 0] #[60]).machine (.index 9) [] none
        (.symbolNotFound (.index 9)) := by
  obtain ⟨v, hreturn⟩ : ∃ v, call ⟨Routine.runWithin 1, 2⟩ (.index 0) [] none
      (.fresh [.body "MAIN" 0 0] #[60]) = some (.ok .void, v) := ⟨_, rfl⟩
  obtain ⟨v', hfail⟩ : ∃ v, call ⟨Routine.runWithin 1, 2⟩ (.index 0) [] none
      (.fresh [.body "MAIN" 0 0] #[]) = some (.error (.outOfBounds 0 0), v) := ⟨_, rfl⟩
  have hrefuse : call ⟨Routine.runWithin 1, 2⟩ (.index 9) [] none
      (.fresh [.body "MAIN" 0 0] #[60]) = some (.error (.symbolNotFound (.index 9)), _) := rfl
  refine ⟨⟨v, hreturn, (call_outcome hreturn).1 _ rfl⟩, ⟨_, v', hfail, ?_⟩, ?_⟩
  · refine ((call_outcome hfail).2.1 _ rfl).resolve_left ?_
    -- the call was not refused, since the function has a signature
    rintro ⟨-, ⟨⟩⟩
    next hf h =>
      cases Option.some.inj hf
      cases h
  · exact (((call_outcome hrefuse).2.1 _ rfl).resolve_right Bool.false_ne_true).2

end RunM

end ScriptMachine
