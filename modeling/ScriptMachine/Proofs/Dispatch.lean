import ScriptMachine.Execution.Dispatch
import ScriptMachine.Proofs.Computation

/-!
# The ways of a dispatch

What happens, part by part, when a function is run by a callback of its own, by the default
callback, or by nothing at all.

* `Dispatched` – the ways of a function that is bound to a callback.
* `Defaulted` – the ways of an external function that is not.
* `RunM.callExternal_eq_some`, `RunM.callOverride_eq_some` – which of them is taken.
-/

namespace ScriptMachine

variable {σ : Type}

/-- The ways of a bound function: its arguments are not there, its callback fails, or its callback
returns and the result is given to the script. -/
inductive Dispatched (b : Budget σ) (f : Symbol) (x : Binding σ) (w : World σ) :
    Except Error Unit → World σ → Prop where
  | arguments {e : Error} {m : Machine σ}
      (ht : Machine.takeArguments f x w.machine = (.error e, m)) :
      Dispatched b f x w (.error e) { w with machine := m }
  | failed {args : List Value} {m : Machine σ} {e : Error} {w' : World σ}
      (ht : Machine.takeArguments f x w.machine = (.ok args, m))
      (hc : RunM.callback b f (x.callback args) { w with machine := m } = some (.error e, w')) :
      Dispatched b f x w (.error e) w'
  | returned {args : List Value} {m m' : Machine σ} {v : Value} {u : World σ}
      {r : Except Error Unit} (ht : Machine.takeArguments f x w.machine = (.ok args, m))
      (hc : RunM.callback b f (x.callback args) { w with machine := m } = some (.ok v, u))
      (hg : Machine.giveResult f x v u.machine = (r, m')) :
      Dispatched b f x w r { u with machine := m' }

/-- The ways of an external function without a callback of its own: the entries it should drop are
not there, the default callback fails or returns, or there is none. -/
inductive Defaulted (b : Budget σ) (f : Symbol) (w : World σ) :
    Except Error Unit → World σ → Prop where
  | entries {e : Error} {m : Machine σ} (hb : Machine.balance f w.machine = (.error e, m)) :
      Defaulted b f w (.error e) { w with machine := m }
  | failed {m : Machine σ} {g : Symbol → Routine σ} {e : Error} {w' : World σ}
      (hb : Machine.balance f w.machine = (.ok (), m)) (hg : m.registrations.fallback = some g)
      (hc : RunM.callback b f (g f) { w with machine := m } = some (.error e, w')) :
      Defaulted b f w (.error e) w'
  | returned {m : Machine σ} {g : Symbol → Routine σ} {v : Value} {w' : World σ}
      (hb : Machine.balance f w.machine = (.ok (), m)) (hg : m.registrations.fallback = some g)
      (hc : RunM.callback b f (g f) { w with machine := m } = some (.ok v, w')) :
      Defaulted b f w w'.machine.ensureUsable w'
  | absent {m : Machine σ} (hb : Machine.balance f w.machine = (.ok (), m))
      (hg : m.registrations.fallback = none) :
      Defaulted b f w (m.reportUnregistered f).ensureUsable
        { w with machine := m.reportUnregistered f }

namespace RunM

variable {b : Budget σ} {f : Symbol} {i : UInt32} {w w' : World σ} {r : Except Error Unit}

theorem dispatch_eq_some {x : Binding σ} (h : dispatch b f x w = some (r, w')) :
    Dispatched b f x w r w' := by
  rcases bind_eq_some.1 h with ⟨args, u, h₁, h₂⟩ | ⟨e, h₁, rfl⟩
  · obtain ⟨ht, hu⟩ := onMachine_eq_some.1 h₁
    rw [hu] at h₂
    rcases bind_eq_some.1 h₂ with ⟨v, u', h₃, h₄⟩ | ⟨e, h₃, rfl⟩
    · obtain ⟨hg, hw⟩ := onMachine_eq_some.1 h₄
      rw [hw]
      exact .returned ht h₃ hg
    · exact .failed ht h₃
  · obtain ⟨ht, hw⟩ := onMachine_eq_some.1 h₁
    rw [hw]
    exact .arguments ht

theorem dispatchDefault_eq_some (h : dispatchDefault b f w = some (r, w')) :
    Defaulted b f w r w' := by
  rcases bind_eq_some.1 h with ⟨u, v, h₁, h₂⟩ | ⟨e, h₁, rfl⟩
  · obtain ⟨hb, hv⟩ := onMachine_eq_some.1 h₁
    -- the default callback is looked up once the stack is balanced
    rw [machine_bind] at h₂
    rcases hg : v.machine.registrations.fallback with _ | g
    · rw [hg] at h₂
      obtain ⟨hr, rfl⟩ := Prod.mk.inj (Option.some.inj h₂)
      rw [← hr, hv]
      exact .absent hb hg
    · rw [hg] at h₂
      rcases bind_eq_some.1 h₂ with ⟨a, u', h₃, h₄⟩ | ⟨e, h₃, rfl⟩
      · obtain ⟨hr, rfl⟩ := Prod.mk.inj (Option.some.inj h₄)
        rw [hv] at h₃
        rw [← hr]
        exact .returned hb hg h₃
      · rw [hv] at h₃
        exact .failed hb hg h₃
  · obtain ⟨hb, hw⟩ := onMachine_eq_some.1 h₁
    rw [hw]
    exact .entries hb

/-- A call of an external function changes nothing if there is no such function. -/
theorem callExternal_eq_some (h : callExternal b i w = some (r, w')) :
    (∃ e, r = .error e ∧ w' = w) ∨
      ∃ f, w.machine.script.symbolByIndex? i = some f ∧ f.isExternal = true ∧
        ((∃ x, w.machine.registrations.externals i = some x ∧ Dispatched b f x w r w') ∨
          w.machine.registrations.externals i = none ∧ Defaulted b f w r w') := by
  rw [callExternal, machine_bind, lift_bind, Script.find, Script.resolve?] at h
  rcases hf : w.machine.script.symbolByIndex? i with _ | f
  · rw [hf] at h
    obtain ⟨rfl, rfl⟩ := Prod.mk.inj (Option.some.inj h)
    exact .inl ⟨_, rfl, rfl⟩
  rw [hf] at h
  rcases he : f.isExternal with _ | _
  · simp only [he] at h
    obtain ⟨rfl, rfl⟩ := Prod.mk.inj (Option.some.inj h)
    exact .inl ⟨_, rfl, rfl⟩
  refine .inr ⟨f, rfl, he, ?_⟩
  simp only [he] at h
  rcases hx : w.machine.registrations.externals i with _ | x
  · rw [hx] at h
    exact .inr ⟨rfl, dispatchDefault_eq_some h⟩
  · rw [hx] at h
    exact .inl ⟨x, rfl, dispatch_eq_some h⟩

/-- A call of a replaced function changes nothing if the function is not replaced. -/
theorem callOverride_eq_some (h : callOverride b i w = some (r, w')) :
    (∃ e, r = .error e ∧ w' = w) ∨
      ∃ f x, w.machine.script.symbolByIndex? i = some f ∧
        w.machine.registrations.overrides i = some x ∧ Dispatched b f x w r w' := by
  rw [callOverride, machine_bind, lift_bind, Script.find, Script.resolve?] at h
  rcases hf : w.machine.script.symbolByIndex? i with _ | f
  · rw [hf] at h
    obtain ⟨rfl, rfl⟩ := Prod.mk.inj (Option.some.inj h)
    exact .inl ⟨_, rfl, rfl⟩
  rw [hf] at h
  rcases hx : w.machine.registrations.overrides i with _ | x
  · simp only [hx] at h
    obtain ⟨rfl, rfl⟩ := Prod.mk.inj (Option.some.inj h)
    exact .inl ⟨_, rfl, rfl⟩
  · simp only [hx] at h
    exact .inr ⟨f, x, rfl, rfl, dispatch_eq_some h⟩

end RunM

end ScriptMachine
