import ScriptMachine.Execution.Routine

/-!
# Computations on machines and worlds

How a sequence of two computations comes to its outcome, whether they only check something or change
a machine or a world, and when a computation keeps a relation between the machine it finds and the
machine it leaves. A relation that is kept by each part of a
sequence is kept by the sequence if it is transitive.
-/

namespace ScriptMachine

variable {σ α β : Type}

/-! ## Checks -/

/-- A sequence of checks succeeds exactly if both of its parts do. -/
theorem Except.bind_eq_ok {ε : Type} {x : Except ε α} {f : α → Except ε β} {b : β} :
    (x >>= f) = .ok b ↔ ∃ a, x = .ok a ∧ f a = .ok b := by
  constructor
  · intro h
    cases x with
    | error => cases h
    | ok a => exact ⟨a, rfl, h⟩
  · rintro ⟨a, rfl, h⟩
    exact h

/-- Once the first part has succeeded, the second one decides. -/
theorem Except.bind_of_ok {ε : Type} {x : Except ε α} {f : α → Except ε β} {a : α}
    (h : x = .ok a) : (x >>= f) = f a := by
  rw [h]
  rfl

/-- Where the first part fails, the sequence does. -/
theorem Except.bind_of_error {ε : Type} {x : Except ε α} {f : α → Except ε β} {e : ε}
    (h : x = .error e) : (x >>= f) = .error e := by
  rw [h]
  rfl

/-! ## Computations on a machine -/

namespace MachineM

/-- A sequence ends as its second part does, or where its first part fails. -/
theorem bind_eq {x : MachineM σ α} {f : α → MachineM σ β} {m m' : Machine σ}
    {r : Except Error β} :
    (x >>= f) m = (r, m') ↔
      (∃ a n, x m = (.ok a, n) ∧ f a n = (r, m')) ∨
        ∃ e, x m = (.error e, m') ∧ r = .error e := by
  have hb : (x >>= f) m = ExceptT.bindCont f (x m).1 (x m).2 := rfl
  rw [hb]
  rcases x m with ⟨e | a, n⟩
  · have he : ExceptT.bindCont f (.error e) n = (.error e, n) := rfl
    rw [he]
    grind
  · have ha : ExceptT.bindCont f (.ok a) n = f a n := rfl
    rw [ha]
    grind

/-- A sequence succeeds exactly if both of its parts do. -/
theorem bind_eq_ok {x : MachineM σ α} {f : α → MachineM σ β} {m m' : Machine σ} {b : β} :
    (x >>= f) m = (.ok b, m') ↔ ∃ a n, x m = (.ok a, n) ∧ f a n = (.ok b, m') := by
  simp [bind_eq]

/-- A computation that only returns a result leaves the machine alone. -/
theorem eq_of_pure {a b : α} {m m' : Machine σ} (h : (pure a : MachineM σ α) m = (.ok b, m')) :
    a = b ∧ m = m' := by
  obtain ⟨ha, hm⟩ := Prod.mk.inj h
  exact ⟨Except.ok.inj ha, hm⟩

@[simp] theorem get_bind (f : Machine σ → MachineM σ β) (m : Machine σ) :
    (get >>= f) m = f m m := rfl

@[simp] theorem modify_bind (g : Machine σ → Machine σ) (f : PUnit → MachineM σ β)
    (m : Machine σ) : ((modify g : MachineM σ PUnit) >>= f) m = f ⟨⟩ (g m) := rfl

/-- A check that succeeds hands its result on; one that fails ends the computation. -/
theorem lift_bind (x : Except Error α) (f : α → MachineM σ β) (m : Machine σ) :
    ((liftM x : MachineM σ α) >>= f) m =
      match x with
      | .ok a => f a m
      | .error e => (.error e, m) := by
  cases x <;> rfl

/-- Whether a computation leaves a machine that is in a relation with the one it found, also when
it fails. -/
def Keeps (R : Machine σ → Machine σ → Prop) (x : MachineM σ α) : Prop :=
  ∀ m r m', x m = (r, m') → R m m'

theorem Keeps.bind {R : Machine σ → Machine σ → Prop} (trans : ∀ {a b c}, R a b → R b c → R a c)
    {x : MachineM σ α} {f : α → MachineM σ β} (hx : Keeps R x) (hf : ∀ a, Keeps R (f a)) :
    Keeps R (x >>= f) := by
  intro m r m' h
  rcases bind_eq.1 h with ⟨a, n, h₁, h₂⟩ | ⟨e, h₁, -⟩
  · exact trans (hx _ _ _ h₁) (hf a _ _ _ h₂)
  · exact hx _ _ _ h₁

theorem Keeps.pure {R : Machine σ → Machine σ → Prop} (refl : ∀ m, R m m) (a : α) :
    Keeps R (pure a : MachineM σ α) := by
  intro m r m' h
  obtain ⟨rfl, rfl⟩ := Prod.mk.inj h
  exact refl _

theorem Keeps.modify {R : Machine σ → Machine σ → Prop} {f : Machine σ → Machine σ}
    (hf : ∀ m, R m (f m)) : Keeps R (modify f : MachineM σ PUnit) := by
  intro m r m' h
  obtain ⟨rfl, rfl⟩ := Prod.mk.inj h
  exact hf _

end MachineM

/-! ## Runs -/

namespace RunM

/-- A sequence of runs ends as its second part does, or where its first part fails. -/
theorem bind_eq_some {x : RunM σ α} {f : α → RunM σ β} {w w' : World σ} {r : Except Error β} :
    (x >>= f) w = some (r, w') ↔
      (∃ a v, x w = some (.ok a, v) ∧ f a v = some (r, w')) ∨
        ∃ e, x w = some (.error e, w') ∧ r = .error e := by
  have hb : (x >>= f) w = (x w).bind fun p => ExceptT.bindCont f p.1 p.2 := rfl
  rw [hb]
  rcases x w with _ | ⟨e | a, v⟩
  · simp
  · have he : ExceptT.bindCont f (.error e) v = some (.error e, v) := rfl
    rw [Option.bind_some, he]
    grind
  · have ha : ExceptT.bindCont f (.ok a) v = f a v := rfl
    rw [Option.bind_some, ha]
    grind

/-- A sequence of runs succeeds exactly if both of its parts do. -/
theorem bind_eq_ok {x : RunM σ α} {f : α → RunM σ β} {w w' : World σ} {b : β} :
    (x >>= f) w = some (.ok b, w') ↔
      ∃ a v, x w = some (.ok a, v) ∧ f a v = some (.ok b, w') := by
  simp [bind_eq_some]

/-- A sequence of runs has no outcome if its first part has none, or its second after the first. -/
theorem bind_eq_none {x : RunM σ α} {f : α → RunM σ β} {w : World σ} :
    (x >>= f) w = none ↔ x w = none ∨ ∃ a v, x w = some (.ok a, v) ∧ f a v = none := by
  have hb : (x >>= f) w = (x w).bind fun p => ExceptT.bindCont f p.1 p.2 := rfl
  rw [hb]
  rcases x w with _ | ⟨e | a, v⟩
  · simp
  · have he : ExceptT.bindCont f (.error e) v = some (.error e, v) := rfl
    rw [Option.bind_some, he]
    simp
  · have ha : ExceptT.bindCont f (.ok a) v = f a v := rfl
    rw [Option.bind_some, ha]
    grind

/-- A run whose result is replaced ends as it did. -/
theorem bind_pure_eq_some {x : RunM σ α} {b : β} {w w' : World σ} {r : Except Error β}
    (h : (x >>= fun _ => pure b) w = some (r, w')) :
    ∃ s, x w = some (s, w') ∧ r = s.map fun _ => b := by
  rcases bind_eq_some.1 h with ⟨a, v, h₁, h₂⟩ | ⟨e, h₁, rfl⟩
  · obtain ⟨rfl, rfl⟩ := Prod.mk.inj (Option.some.inj h₂)
    exact ⟨.ok a, h₁, rfl⟩
  · exact ⟨.error e, h₁, rfl⟩

/-- A sequence of runs goes on where its first part ends. -/
theorem bind_of_ok {x : RunM σ α} {f : α → RunM σ β} {w v : World σ} {a : α}
    (h : x w = some (.ok a, v)) : (x >>= f) w = f a v := by
  have hb : (x >>= f) w = (x w).bind fun p => ExceptT.bindCont f p.1 p.2 := rfl
  rw [hb, h]
  rfl

/-- A sequence of runs ends where its first part fails. -/
theorem bind_of_error {x : RunM σ α} {f : α → RunM σ β} {w v : World σ} {e : Error}
    (h : x w = some (.error e, v)) : (x >>= f) w = some (.error e, v) :=
  bind_eq_some.2 (.inr ⟨e, h, rfl⟩)

@[simp] theorem throw_bind (e : Error) (f : α → RunM σ β) (w : World σ) :
    ((throw e : RunM σ α) >>= f) w = some (.error e, w) := rfl

@[simp] theorem machine_bind (f : Machine σ → RunM σ β) (w : World σ) :
    (machine >>= f) w = f w.machine w := rfl

@[simp] theorem modifyMachine_bind (g : Machine σ → Machine σ) (f : Unit → RunM σ β)
    (w : World σ) : (modifyMachine g >>= f) w = f () { w with machine := g w.machine } := rfl

/-- A check that succeeds hands its result on; one that fails ends the run. -/
theorem lift_bind (x : Except Error α) (f : α → RunM σ β) (w : World σ) :
    ((liftM x : RunM σ α) >>= f) w =
      match x with
      | .ok a => f a w
      | .error e => some (.error e, w) := by
  cases x <;> rfl

/-- An operation on the machine has an outcome in every world, and leaves the host alone. -/
theorem onMachine_eq_some {x : MachineM σ α} {w w' : World σ} {r : Except Error α} :
    onMachine x w = some (r, w') ↔
      x w.machine = (r, w'.machine) ∧ w' = { w with machine := w'.machine } := by
  have hx : onMachine x w = some ((x w.machine).1, { w with machine := (x w.machine).2 }) := rfl
  rw [hx, Option.some.injEq, Prod.mk.injEq]
  constructor
  · rintro ⟨rfl, rfl⟩
    exact ⟨rfl, rfl⟩
  · rintro ⟨h, hw⟩
    rw [h]
    exact ⟨rfl, hw.symm⟩

/-- An operation on the machine ends as it does on its own. -/
theorem onMachine_of_eq {x : MachineM σ α} {w : World σ} {r : Except Error α} {m : Machine σ}
    (h : x w.machine = (r, m)) : onMachine x w = some (r, { w with machine := m }) := by
  rw [onMachine, h]

/-- A run that begins with an operation on the machine has no outcome only if what follows has
none. -/
theorem onMachine_bind_eq_none {x : MachineM σ α} {f : α → RunM σ β} {w : World σ} :
    (onMachine x >>= f) w = none ↔
      ∃ a m, x w.machine = (.ok a, m) ∧ f a { w with machine := m } = none := by
  rw [bind_eq_none]
  constructor
  · rintro (h | ⟨a, v, h, hf⟩)
    · cases h
    · obtain ⟨hx, hv⟩ := onMachine_eq_some.1 h
      rw [hv] at hf
      exact ⟨a, _, hx, hf⟩
  · rintro ⟨a, m, hx, hf⟩
    exact .inr ⟨a, _, onMachine_of_eq hx, hf⟩

/-- A run with a change behind it has an outcome if the run has. -/
theorem andThen_eq_none {x : RunM σ α} {f : Except Error α → Machine σ → Machine σ}
    {w : World σ} : x.andThen f w = none ↔ x w = none := by
  rw [andThen]
  rcases x w with _ | ⟨s, v⟩ <;> simp

/-- A run with a change behind it has the outcome of the run. -/
theorem andThen_eq_some {x : RunM σ α} {f : Except Error α → Machine σ → Machine σ}
    {w w' : World σ} {r : Except Error α} :
    x.andThen f w = some (r, w') ↔
      ∃ v, x w = some (r, v) ∧ w' = { v with machine := f r v.machine } := by
  rw [andThen]
  rcases x w with _ | ⟨s, v⟩
  · simp
  · simp only [Option.some.injEq, Prod.mk.injEq]
    grind

/-- Whatever is done about an error, the run ends as it does without that. -/
theorem exists_onError_iff {x : RunM σ α} {f : Error → Machine σ → Machine σ} {w : World σ}
    {r : Except Error α} : (∃ v, x.onError f w = some (r, v)) ↔ ∃ v, x w = some (r, v) := by
  constructor
  · rintro ⟨v, hv⟩
    obtain ⟨u, hu, -⟩ := andThen_eq_some.1 hv
    exact ⟨u, hu⟩
  · rintro ⟨u, hu⟩
    exact ⟨_, andThen_eq_some.2 ⟨u, hu, rfl⟩⟩

/-- A callback of a function ends as its routine does. -/
theorem callback_eq_some {b : Budget σ} {f : Symbol} {x : Routine σ} {w w' : World σ}
    {r : Except Error Value} :
    callback b f x w = some (r, w') ↔
      ∃ o, b.callback x w = some (o, w') ∧ r = o.mapError (HostFailure.toError f.name) := by
  rw [callback]
  rcases b.callback x w with _ | ⟨_ | v, u⟩
  · simp
  · simp only [Option.some.injEq, Prod.mk.injEq]
    constructor
    · rintro ⟨rfl, rfl⟩
      exact ⟨_, ⟨rfl, rfl⟩, rfl⟩
    · rintro ⟨o, ⟨rfl, rfl⟩, rfl⟩
      exact ⟨rfl, rfl⟩
  · simp only [Option.some.injEq, Prod.mk.injEq]
    constructor
    · rintro ⟨rfl, rfl⟩
      exact ⟨_, ⟨rfl, rfl⟩, rfl⟩
    · rintro ⟨o, ⟨rfl, rfl⟩, rfl⟩
      exact ⟨rfl, rfl⟩

/-- What the steps of a loop preserve holds before its last step, and that step decides how the loop
ends. -/
theorem exists_last_step {x : RunM σ Bool} {I : World σ → Prop}
    (hI : ∀ {v v'}, I v → x v = some (.ok false, v') → I v') {r : Except Error Unit}
    {w' : World σ} :
    ∀ {n : Nat} {w : World σ}, I w → repeatStep x n w = some (r, w') →
      ∃ v, I v ∧ ((x v = some (.ok true, w') ∧ r = .ok ()) ∨
        ∃ e, x v = some (.error e, w') ∧ r = .error e) := by
  intro n
  -- on the number of steps allowed, from any world in which `I` holds
  induction n with
  | zero => exact fun _ h => nomatch h
  | succ n ih =>
    intro w hw h
    rw [repeatStep] at h
    rcases hx : x w with _ | ⟨e | back, v⟩
    · rw [hx] at h
      cases h
    · rw [hx] at h
      obtain ⟨rfl, rfl⟩ := Prod.mk.inj (Option.some.inj h)
      exact ⟨w, hw, .inr ⟨e, hx, rfl⟩⟩
    rw [hx] at h
    cases back with
    | true =>
      obtain ⟨rfl, rfl⟩ := Prod.mk.inj (Option.some.inj h)
      exact ⟨w, hw, .inl ⟨hx, rfl⟩⟩
    | false => exact ih (hI hw hx) h

/-- Whether a run leaves a machine that is in a relation with the one it found, also when it
fails. -/
def Keeps (R : Machine σ → Machine σ → Prop) (x : RunM σ α) : Prop :=
  ∀ w r w', x w = some (r, w') → R w.machine w'.machine

end RunM

/-! ## Host code that waits for an answer -/

namespace Routine

/-- What holds of host code that has ended, and of a request as soon as it holds of whatever follows
the answer, holds of all host code. What follows an answer may be that the program ends. -/
theorem induction_resume {C : Routine σ → Prop} (finish : ∀ outcome, C (.finish outcome))
    (getHost : ∀ next, (∀ s, C (next s)) → C (.getHost next))
    (setHost : ∀ s next, C next → C (.setHost s next))
    (ask : ∀ q next, (∀ r, C (resume (q.ends r) (next r))) → C (.ask q next))
    (call : ∀ key args expected next, (∀ r, C (resume (Error.ends r) (next r))) →
      C (.call key args expected next))
    (create : ∀ key tag next, (∀ r, C (resume (Error.ends r) (next r))) →
      C (.create key tag next))
    (runBody : ∀ h next, (∀ r, C (resume (Error.ends r) (next r))) → C (.runBody h next))
    (registerExternal : ∀ key params result callback next, (∀ r, C (next r)) →
      C (.registerExternal key params result callback next))
    (overrideFunction : ∀ key params result callback next, (∀ r, C (next r)) →
      C (.overrideFunction key params result callback next))
    (registerDefault : ∀ callback next, C next → C (.registerDefault callback next))
    (x : Routine σ) : C x := by
  have hresume : ∀ {ends y}, C y → C (resume ends y) := by
    intro ends y hy
    rw [resume]
    split
    · exact finish ended
    · exact hy
  induction x with
  | finish outcome => exact finish outcome
  | getHost next ih => exact getHost next ih
  | setHost s next ih => exact setHost s next ih
  | ask q next ih => exact ask q next fun r => hresume (ih r)
  | call key args expected next ih => exact call key args expected next fun r => hresume (ih r)
  | create key tag next ih => exact create key tag next fun r => hresume (ih r)
  | runBody h next ih => exact runBody h next fun r => hresume (ih r)
  | registerExternal key params result callback next _ ih =>
    exact registerExternal key params result callback next ih
  | overrideFunction key params result callback next _ ih =>
    exact overrideFunction key params result callback next ih
  | registerDefault callback next _ ih => exact registerDefault callback next ih

theorem run_resume (b : Budget σ) (ends : Bool) (x : Routine σ) (w : World σ) :
    run b (resume ends x) w = if ends then some (ended, w) else run b x w := by
  cases ends <;> rfl

/-- Host code goes on with the answer to a query. -/
theorem run_ask (b : Budget σ) (q : Query) (next : q.Reply → Routine σ) (w : World σ) :
    run b (.ask q next) w = run b (resume (q.ends (q.answer w.machine).1)
      (next (q.answer w.machine).1)) { w with machine := (q.answer w.machine).2 } := by
  rw [run_resume]
  rfl

/-- Host code goes on with the outcome of a call. -/
theorem run_call (b : Budget σ) (key : SymbolKey) (args : List Value) (expected : Option Kind)
    (next : Except Error Value → Routine σ) (w : World σ) :
    run b (.call key args expected next) w = (RunM.call b key args expected w).bind fun p =>
      run b (resume (Error.ends p.1) (next p.1)) p.2 := by
  simp only [run, run_resume]
  cases RunM.call b key args expected w <;> rfl

theorem run_create (b : Budget σ) (key : SymbolKey) (tag : InstanceTag)
    (next : Except Error Handle → Routine σ) (w : World σ) :
    run b (.create key tag next) w = (RunM.create b key tag w).bind fun p =>
      run b (resume (Error.ends p.1) (next p.1)) p.2 := by
  simp only [run, run_resume]
  cases RunM.create b key tag w <;> rfl

theorem run_runBody (b : Budget σ) (x : Handle) (next : Except Error Unit → Routine σ)
    (w : World σ) :
    run b (.runBody x next) w = (RunM.runBody b x w).bind fun p =>
      run b (resume (Error.ends p.1) (next p.1)) p.2 := by
  simp only [run, run_resume]
  cases RunM.runBody b x w <;> rfl

end Routine

/-- Whether host code leaves a machine that is in a relation with the one it found, however it is
run. -/
def RoutineRunner.Keeps (R : Machine σ → Machine σ → Prop) (c : RoutineRunner σ) : Prop :=
  ∀ x w o w', c x w = some (o, w') → R w.machine w'.machine

/-- A callback keeps what its routine keeps. -/
theorem RunM.Keeps.callback {R : Machine σ → Machine σ → Prop} {b : Budget σ}
    (hb : b.callback.Keeps R) (f : Symbol) (x : Routine σ) : Keeps R (callback b f x) := by
  intro w r w' h
  obtain ⟨o, ho, -⟩ := callback_eq_some.1 h
  exact hb _ _ _ _ ho

end ScriptMachine
