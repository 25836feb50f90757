import ScriptMachine.Proofs.Computation
import ScriptMachine.Proofs.Permission

/-!
# What a budget decides

A budget decides whether a run has an outcome, but not which: a run that has an outcome has the same
one under any budget that allows for more. A budget whose callbacks have fewer outcomes, since some
of what they do is not permitted, allows for less.

* `Budget.Below` – budgets under which callbacks have the same outcomes, if any.
* `Routine.run_below` – host code under such budgets.
* `Routine.runWithin_mono` – more budget does not change an outcome.
* `Routine.runWithin_of_runUnder` – neither does leaving a permission aside.
-/

namespace ScriptMachine

variable {σ α β : Type} {b b' : Budget σ}

/-- Whether callbacks that have an outcome under one budget have the same under another. -/
def Budget.Below (b b' : Budget σ) : Prop :=
  ∀ x w o, b.callback x w = some o → b'.callback x w = some o

namespace RunM

/-- Whether a run that has an outcome has the same outcome as another one. -/
def Below (x y : RunM σ α) : Prop := ∀ w o, x w = some o → y w = some o

theorem Below.refl (x : RunM σ α) : Below x x := fun _ _ h => h

theorem Below.bind {x y : RunM σ α} {f g : α → RunM σ β} (hx : Below x y)
    (hf : ∀ a, Below (f a) (g a)) : Below (x >>= f) (y >>= g) := by
  rintro w ⟨r, w'⟩ h
  rcases bind_eq_some.1 h with ⟨a, v, h₁, h₂⟩ | ⟨e, h₁, rfl⟩
  · exact bind_eq_some.2 (.inl ⟨a, v, hx _ _ h₁, hf a _ _ h₂⟩)
  · exact bind_eq_some.2 (.inr ⟨e, hx _ _ h₁, rfl⟩)

theorem Below.andThen {x y : RunM σ α} (hx : Below x y)
    (f : Except Error α → Machine σ → Machine σ) : Below (x.andThen f) (y.andThen f) := by
  rintro w ⟨r, w'⟩ h
  obtain ⟨v, hv, hw⟩ := andThen_eq_some.1 h
  exact andThen_eq_some.2 ⟨v, hx _ _ hv, hw⟩

/-- A loop that ends does so within more steps too. -/
theorem Below.repeatStep {x y : RunM σ Bool} (hx : Below x y) :
    ∀ {n k : Nat}, n ≤ k → Below (repeatStep x n) (repeatStep y k) := by
  intro n
  induction n with
  | zero => exact fun _ _ _ h => nomatch h
  | succ n ih =>
    rintro (_ | k) hk w ⟨r, w'⟩ h
    · exact absurd hk (Nat.not_succ_le_zero n)
    rw [RunM.repeatStep] at h ⊢
    rcases hstep : x w with _ | ⟨e | back, v⟩
    · rw [hstep] at h
      cases h
    · rw [hx _ _ hstep]
      rwa [hstep] at h
    · rw [hx _ _ hstep]
      rw [hstep] at h
      cases back with
      | true => exact h
      | false => exact ih (Nat.le_of_succ_le_succ hk) v _ h

/-! ## Dispatches and steps -/

section

variable (hb : b.Below b')

include hb

theorem callback_below (f : Symbol) (x : Routine σ) :
    Below (callback b f x) (callback b' f x) := by
  rintro w ⟨r, w'⟩ h
  obtain ⟨o, ho, hr⟩ := callback_eq_some.1 h
  exact callback_eq_some.2 ⟨o, hb _ _ _ ho, hr⟩

theorem dispatch_below (f : Symbol) (x : Binding σ) : Below (dispatch b f x) (dispatch b' f x) :=
  .bind (.refl _) fun args => .bind (callback_below hb f (x.callback args)) fun _ => .refl _

theorem dispatchDefault_below (f : Symbol) :
    Below (dispatchDefault b f) (dispatchDefault b' f) := by
  refine .bind (.refl _) fun _ => .bind (.refl machine) fun m => ?_
  split
  · next g _ => exact .bind (callback_below hb f (g f)) fun _ => .refl _
  · exact .refl _

theorem callExternal_below (i : UInt32) : Below (callExternal b i) (callExternal b' i) := by
  refine .bind (.refl machine) fun m => .bind (.refl _) fun f => ?_
  dsimp only
  split
  · -- the function is not external, so that no callback is run
    intro w o h
    rw [throw_bind] at h ⊢
    exact h
  · split
    · exact dispatch_below hb f _
    · exact dispatchDefault_below hb f

theorem callOverride_below (i : UInt32) : Below (callOverride b i) (callOverride b' i) := by
  refine .bind (.refl machine) fun m => .bind (.refl _) fun f => ?_
  split
  · exact dispatch_below hb f _
  · exact .refl _

/-- A step that has an outcome has the same under a budget under which callbacks have the same
outcomes. -/
theorem step_below : Below (step b) (step b') := by
  refine .bind (.refl _) fun i => .bind (.refl _) fun flow => ?_
  cases flow with
  | next | leave => exact .refl _
  | external f => exact .bind (callExternal_below hb f) fun _ => .refl _
  | override f => exact .bind (callOverride_below hb f) fun _ => .refl _

end

/-! ## Calls and bodies of instances -/

section

variable (hb : b.Below b') (hs : b.steps ≤ b'.steps)

include hb hs

theorem runFunction_below (f a : UInt32) : Below (runFunction b f a) (runFunction b' f a) :=
  .bind (.refl machine) fun _ => .andThen
    (.bind (.refl _) fun _ => (step_below hb).repeatStep hs) _

theorem invoke_below (f : Symbol) : Below (invoke b f) (invoke b' f) := by
  refine .bind (.refl machine) fun m => ?_
  split
  · exact callOverride_below hb _
  · split
    · exact callExternal_below hb _
    · exact runFunction_below hb hs _ _

theorem call_below (key : SymbolKey) (args : List Value) (expected : Option Kind) :
    Below (call b key args expected) (call b' key args expected) :=
  .bind (.refl machine) fun _ => .bind (.refl _) fun p => .bind (.refl _) fun _ =>
    .bind (.andThen (.bind (invoke_below hb hs p.1) fun _ => .refl _) _) fun _ => .refl _

theorem runBody_below (x : Handle) : Below (runBody b x) (runBody b' x) :=
  .bind (.refl machine) fun _ => .bind (.refl _) fun s => .bind (.refl _) fun _ =>
    .bind (.andThen (runFunction_below hb hs s.index s.address) _) fun _ => .refl _

theorem create_below (key : SymbolKey) (tag : InstanceTag) :
    Below (create b key tag) (create b' key tag) :=
  .bind (.refl machine) fun _ => .bind (.refl _) fun _ => .bind (.refl _) fun x =>
    .bind (runBody_below hb hs x) fun _ => .refl _

end

end RunM

namespace Routine

/-- Host code that has an outcome has the same under a budget that allows for more. -/
theorem run_below (hb : b.Below b') (hs : b.steps ≤ b'.steps) (x : Routine σ) :
    ∀ w o, run b x w = some o → run b' x w = some o := by
  induction x using induction_resume with
  | finish => exact fun _ _ h => h
  | getHost next ih => exact fun w o h => ih _ _ _ h
  | setHost s next ih => exact fun w o h => ih _ _ h
  | ask q next ih =>
    intro w o h
    rw [run_ask] at h ⊢
    exact ih _ _ o h
  | call key args expected next ih =>
    intro w o h
    rw [run_call] at h
    obtain ⟨⟨r, v⟩, hc, h⟩ := Option.bind_eq_some_iff.1 h
    rw [run_call, RunM.call_below hb hs _ _ _ _ _ hc]
    exact ih r v o h
  | create key tag next ih =>
    intro w o h
    rw [run_create] at h
    obtain ⟨⟨r, v⟩, hc, h⟩ := Option.bind_eq_some_iff.1 h
    rw [run_create, RunM.create_below hb hs _ _ _ _ hc]
    exact ih r v o h
  | runBody x next ih =>
    intro w o h
    rw [run_runBody] at h
    obtain ⟨⟨r, v⟩, hc, h⟩ := Option.bind_eq_some_iff.1 h
    rw [run_runBody, RunM.runBody_below hb hs _ _ _ hc]
    exact ih r v o h
  | registerExternal key params result callback next ih => exact fun w o h => ih _ _ _ h
  | overrideFunction key params result callback next ih => exact fun w o h => ih _ _ _ h
  | registerDefault callback next ih => exact fun w o h => ih _ _ h

/-- More budget does not change an outcome. -/
theorem runWithin_mono {n k : Nat} (hk : n ≤ k) (x : Routine σ) :
    ∀ w o, runWithin n x w = some o → runWithin k x w = some o := by
  induction n generalizing k x with
  | zero => exact fun _ _ h => nomatch h
  | succ n ih =>
    rcases k with _ | k
    · exact absurd hk (Nat.not_succ_le_zero n)
    have hk := Nat.le_of_succ_le_succ hk
    exact run_below (fun y v o h => ih hk y v o h) hk x

/-- A run that does only what is permitted is a run. -/
theorem runWithin_of_runUnder {P : Permission σ} (n : Nat) (x : Routine σ) :
    ∀ w o, runUnder P n x w = some o → runWithin n x w = some o := by
  induction n generalizing x with
  | zero => exact fun _ _ h => nomatch h
  | succ n ih =>
    intro w o h
    have hb : Budget.Below ⟨(runUnder P n).handing P, n⟩ ⟨(runWithin n : RoutineRunner σ), n⟩ :=
      fun y v p hp => ih y v p (Option.filter_eq_some_iff.1 hp).1
    rw [runUnder] at h
    dsimp only at h
    split at h
    · exact run_below hb (Nat.le_refl n) x w o h
    · cases h

end Routine

end ScriptMachine
