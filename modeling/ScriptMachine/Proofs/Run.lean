import ScriptMachine.Execution.Routine
import ScriptMachine.Proofs.Usable

/-!
# What every run keeps

A relation between machines that holds of whatever is permitted is kept by host code that does only
what is permitted, provided that it is kept by the bodies it runs. The bodies may assume it of their
callbacks, since callbacks nest less deep. A relation that holds of all edits is kept by any host
code.

* `RoutineRunner.Heeds`, `Budget.Heeds` – whether callbacks, and bodies, keep a relation if they
  do only what is permitted.
* `Machine.Governs.run`, `Machine.Governs.runUnder` – then host code keeps it, however deep
  callbacks nest.
* `Machine.Stable` – relations that hold of all edits.
* `Routine.keeps_run`, `Routine.keeps_runWithin` – what any host code keeps.
-/

namespace ScriptMachine

open Machine

variable {σ : Type} {P : Permission σ} {R : Machine σ → Machine σ → Prop}

/-- Whether host code leaves a machine that is in a relation with the one it found, however it is
run, and hands over only what may be placed. -/
def RoutineRunner.Heeds (P : Permission σ) (R : Machine σ → Machine σ → Prop)
    (c : RoutineRunner σ) : Prop :=
  ∀ x w o w', c x w = some (o, w') →
    R w.machine w'.machine ∧ ∀ v, o = .ok v → P.places w'.machine.memory v = true

/-- Whether callbacks and bodies under a budget keep a relation, where callbacks hand over only what
may be placed. A body is only run by a machine that is usable. -/
structure Budget.Heeds (P : Permission σ) (R : Machine σ → Machine σ → Prop)
    (b : Budget σ) : Prop where
  callback : b.callback.Heeds P R
  body : ∀ {f a : UInt32} {w w' : World σ} {r : Except Error Unit},
    RunM.runFunction b f a w = some (r, w') → w.machine.poison = none → R w.machine w'.machine

/-- Callbacks that hand over only what may be placed keep what they did. -/
theorem RoutineRunner.Keeps.handing {c : RoutineRunner σ} (hc : c.Keeps R) (P : Permission σ) :
    (c.handing P).Heeds P R := by
  intro x w o w' h
  obtain ⟨hx, hv⟩ := Option.filter_eq_some_iff.1 h
  refine ⟨hc x w o w' hx, ?_⟩
  rintro v rfl
  exact hv

variable {b : Budget σ} {w w' : World σ}

/-- A callback keeps what its routine keeps. -/
theorem RunM.heeds_callback {f : Symbol} {x : Routine σ} {r : Except Error Value}
    (hb : b.callback.Heeds P R) (h : callback b f x w = some (r, w')) :
    R w.machine w'.machine ∧ ∀ v, r = .ok v → P.places w'.machine.memory v = true := by
  obtain ⟨o, ho, rfl⟩ := callback_eq_some.1 h
  obtain ⟨hw, hv⟩ := hb _ _ _ _ ho
  refine ⟨hw, fun v hr => hv v ?_⟩
  cases o with
  | error => cases hr
  | ok => exact congrArg _ (Except.ok.inj hr)

/-- What is displaced by a body that was run may be put back. -/
theorem RunM.places_of_restorable {x : Handle} {s : Symbol} {r : Except Error Unit}
    (hx : restorable P b x w = true) (hs : w.machine.checkBody x = .ok s)
    (hr : runFunction b s.index s.address { w with machine := w.machine.beginBody s x } =
      some (r, w')) :
    P.places w'.machine.memory (.inst w.machine.displaced.context) = true ∧
      P.places w'.machine.memory (.inst w.machine.displaced.self) = true := by
  simp only [restorable, hs, hr, Option.all_some, Bool.and_eq_true] at hx
  exact hx

namespace Machine.Governs

/-! ## Dispatches -/

section

variable (hR : Governs P R) (hb : b.callback.Heeds P R)

include hR hb

theorem dispatched {f : Symbol} {x : Binding σ} {r : Except Error Unit}
    (h : Dispatched b f x w r w') : R w.machine w'.machine := by
  have := hR.toAbsorbs
  cases h with
  | arguments ht => exact keeps_takeArguments f x _ _ _ ht
  | failed ht hc =>
    exact hR.trans (keeps_takeArguments f x _ _ _ ht) (RunM.heeds_callback hb hc).1
  | returned ht hc hg =>
    obtain ⟨hu, hv⟩ := RunM.heeds_callback hb hc
    exact hR.trans (hR.trans (keeps_takeArguments f x _ _ _ ht) hu) (hR.giveResult (hv _ rfl) hg)

theorem defaulted {f : Symbol} {r : Except Error Unit} (h : Defaulted b f w r w') :
    R w.machine w'.machine := by
  have := hR.toAbsorbs
  cases h with
  | entries hm => exact keeps_balance f _ _ _ hm
  | failed hm hg hc | returned hm hg hc =>
    exact hR.trans (keeps_balance f _ _ _ hm) (RunM.heeds_callback hb hc).1
  | absent hm hg =>
    exact hR.trans (keeps_balance f _ _ _ hm) (hR.plain (.reportUnregistered _ f))

theorem callExternal {i : UInt32} {r : Except Error Unit}
    (h : RunM.callExternal b i w = some (r, w')) : R w.machine w'.machine := by
  rcases RunM.callExternal_eq_some h with ⟨e, -, rfl⟩ | ⟨f, -, -, ⟨x, -, h⟩ | ⟨-, h⟩⟩
  · exact hR.refl _
  · exact hR.dispatched hb h
  · exact hR.defaulted hb h

theorem callOverride {i : UInt32} {r : Except Error Unit}
    (h : RunM.callOverride b i w = some (r, w')) : R w.machine w'.machine := by
  rcases RunM.callOverride_eq_some h with ⟨e, -, rfl⟩ | ⟨f, x, -, -, h⟩
  · exact hR.refl _
  · exact hR.dispatched hb h

end

/-! ## Calls and bodies of instances -/

section

variable (hR : Governs P R) (hb : b.Heeds P R)

include hR hb

theorem invoke {f : Symbol} {r : Except Error Unit} (h : RunM.invoke b f w = some (r, w'))
    (hw : w.machine.poison = none) : R w.machine w'.machine := by
  rcases RunM.invoke_eq_some h with ⟨-, h⟩ | ⟨-, h⟩ | ⟨-, -, h⟩
  · exact hR.callOverride hb.callback h
  · exact hR.callExternal hb.callback h
  · exact hb.body h hw

theorem call {key : SymbolKey} {args : List Value} {expected : Option Kind}
    {r : Except Error Value} (hargs : args.all (P.places w.machine.memory) = true)
    (h : RunM.call b key args expected w = some (r, w')) : R w.machine w'.machine := by
  have := hR.toAbsorbs
  have hf : ∀ {f s r u}, Accepts w.machine key args expected f s →
      RunM.invoke b f { w with machine := w.machine.beginCall f args } = some (r, u) →
        R w.machine u.machine := by
    intro f s r u ha hi
    -- a function is only run by a usable machine, as `Budget.Heeds` asks for
    have hu := (poison_beginCall w.machine f args).trans ha.usable
    exact hR.trans (hR.beginCall f (List.all_eq_true.1 hargs)) (hR.invoke hb hi hu)
  rcases RunM.call_eq_some h with h | ⟨ha, hi⟩ | ⟨ha, hi, ht⟩ | ⟨ha, hi, ht⟩
  · exact hR.refl _
  · exact hR.trans (hf ha hi) (absorbs_poisonWith _ _)
  · exact hR.trans (hf ha hi)
      (hR.trans (keeps_takeResult _ _ _ _ _ _ ht) (absorbs_poisonWith _ _))
  · exact hR.trans (hf ha hi) (keeps_takeResult _ _ _ _ _ _ ht)

theorem initialized {x : Handle} {r : Except Error Unit}
    (hx : RunM.restorable P b x w = true) (h : Initialized b x w r w') :
    R w.machine w'.machine := by
  have := hR.toAbsorbs
  have hf : ∀ {s r u}, w.machine.checkBody x = .ok s →
      RunM.runFunction b s.index s.address { w with machine := w.machine.beginBody s x } =
        some (r, u) → R w.machine (u.machine.restore w.machine.displaced) := by
    intro s r u hs hr
    have hu : (w.machine.beginBody s x).poison = none := usable_of_checkBody hs
    have hbody : R (w.machine.beginBody s x) u.machine := hb.body hr hu
    obtain ⟨hcontext, hself⟩ := RunM.places_of_restorable hx hs hr
    exact hR.trans (hR.beginBody hs) (hR.trans hbody (hR.restore hcontext hself))
  rcases h with h | ⟨hs, hr⟩ | ⟨hs, hr, hm⟩
  · exact hR.refl _
  · exact hf hs hr
  · exact hR.trans (hf hs hr) (keeps_markInitialized _ _ _ _ hm)

theorem create {key : SymbolKey} {tag : InstanceTag} {r : Except Error Handle}
    (hx : ∀ x m, Machine.alloc key tag w.machine = (.ok x, m) →
      RunM.restorable P b x { w with machine := m } = true)
    (h : RunM.create b key tag w = some (r, w')) : R w.machine w'.machine := by
  have := hR.toAbsorbs
  rcases RunM.create_eq_some h with hu | ⟨hu, ha⟩ | ⟨hu, ha, hr⟩
  · exact hR.refl _
  · exact keeps_alloc key tag _ _ _ ha
  · have hm : R w.machine _ := keeps_alloc key tag _ _ _ ha
    exact hR.trans hm (hR.initialized hb (hx _ _ ha) hr)

/-- Host code that does only what is permitted keeps what the callbacks and the bodies it runs
keep. -/
theorem run {x : Routine σ} : ∀ {w : World σ} {o : Except HostFailure Value} {w' : World σ},
    x.heeds P b w = true → Routine.run b x w = some (o, w') → R w.machine w'.machine := by
  induction x using Routine.induction_resume with
  | finish outcome =>
    intro w o w' _ h
    obtain ⟨-, rfl⟩ := Prod.mk.inj (Option.some.inj h)
    exact hR.refl _
  | getHost next ih => exact fun hx h => ih _ hx h
  | setHost s next ih => exact @fun w _ _ hx h => ih (w := { w with host := s }) hx h
  | ask q next ih =>
    intro w o w' hx h
    rw [Routine.heeds_ask] at hx
    rw [Routine.run_ask] at h
    obtain ⟨hq, hx⟩ := Bool.and_eq_true_iff.1 hx
    exact hR.trans (hR.answer hq) (ih _ hx h)
  | call key args expected next ih =>
    intro w o w' hx h
    rw [Routine.run_call] at h
    obtain ⟨⟨r, v⟩, hc, h⟩ := Option.bind_eq_some_iff.1 h
    rw [Routine.heeds_call hc] at hx
    obtain ⟨hargs, hx⟩ := Bool.and_eq_true_iff.1 hx
    exact hR.trans (hR.call hb hargs hc) (ih r hx h)
  | create key tag next ih =>
    intro w o w' hx h
    rw [Routine.run_create] at h
    obtain ⟨⟨r, v⟩, hc, h⟩ := Option.bind_eq_some_iff.1 h
    rw [Routine.heeds_create hc] at hx
    obtain ⟨halloc, hx⟩ := Bool.and_eq_true_iff.1 hx
    refine hR.trans (hR.create hb (fun x m ha => ?_) hc) (ih r hx h)
    rwa [Routine.mayBegin, ha] at halloc
  | runBody x next ih =>
    intro w o w' hx h
    rw [Routine.run_runBody] at h
    obtain ⟨⟨r, v⟩, hc, h⟩ := Option.bind_eq_some_iff.1 h
    rw [Routine.heeds_runBody hc] at hx
    obtain ⟨hrestore, hx⟩ := Bool.and_eq_true_iff.1 hx
    exact hR.trans (hR.initialized hb hrestore (RunM.runBody_eq_some hc)) (ih r hx h)
  -- a callback that is registered does not run yet
  | registerExternal key params result callback next ih =>
    exact fun hx h => hR.trans (hR.registered fun _ h => .registerExternal h) (ih _ hx h)
  | overrideFunction key params result callback next ih =>
    exact fun hx h => hR.trans (hR.registered fun _ h => .overrideFunction h) (ih _ hx h)
  | registerDefault callback next ih =>
    exact fun hx h => hR.trans (hR.plain (.registerDefault _ callback)) (ih hx h)

end

/-- Host code that does only what is permitted keeps a relation, however deep its callbacks nest, if
each body keeps it whose callbacks do. -/
theorem runUnder (hR : Governs P R)
    (hbody : ∀ {b : Budget σ}, b.callback.Heeds P R → b.Heeds P R) :
    ∀ n, (Routine.runUnder P n).Keeps R
  | 0 => fun _ _ _ _ h => nomatch h
  | n + 1 => by
    intro x w o w' h
    have hcallback := (runUnder hR hbody n).handing P
    rw [Routine.runUnder] at h
    dsimp only at h
    split at h
    · next hx => exact hR.run (hbody hcallback) hx h
    · cases h

end Machine.Governs

/-! ## What any host code keeps -/

/-- Whether a relation between machines can be chained and holds of whatever edits do. -/
structure Machine.Stable (R : Machine σ → Machine σ → Prop) : Prop where
  trans : ∀ {a b c}, R a b → R b c → R a c
  edits : ∀ {a b}, Edits a b → R a b

/-- Such a relation holds of anything that a host may be permitted. -/
theorem Machine.Stable.governs (hR : Stable R) : Governs .any R where
  refl _ := hR.edits .refl
  trans := hR.trans
  plain h := hR.edits (.single h.edit)
  placed _ h := hR.edits (.single h.edit)
  freed _ h := hR.edits (.single (.free h))

/-- Whether callbacks and bodies under a budget keep a relation. A body is only run by a machine
that is usable. -/
structure Budget.Keeps (R : Machine σ → Machine σ → Prop) (b : Budget σ) : Prop where
  callback : b.callback.Keeps R
  body : ∀ {f a : UInt32} {w w' : World σ} {r : Except Error Unit},
    RunM.runFunction b f a w = some (r, w') → w.machine.poison = none → R w.machine w'.machine

theorem RoutineRunner.Keeps.heeds {c : RoutineRunner σ} (h : c.Keeps R) : c.Heeds .any R :=
  fun x w o w' hc => ⟨h x w o w' hc, fun _ _ => rfl⟩

theorem RunM.restorable_any (x : Handle) (w : World σ) : restorable .any b x w = true := by
  rw [restorable]
  split
  · rfl
  · next s hs => cases hr : runFunction b s.index s.address _ <;> rfl

/-- Any request of host code that may do anything is permitted. -/
theorem Routine.mayBegin_any (x : Routine σ) (w : World σ) : x.mayBegin .any b w = true := by
  cases x with
  | ask q => cases q <;> rfl
  | call => exact List.all_eq_true.2 fun _ _ => rfl
  | create =>
    rw [mayBegin]
    split
    · exact RunM.restorable_any _ _
    · rfl
  | runBody => exact RunM.restorable_any _ _
  | _ => rfl

/-- Host code that may do anything does only what is permitted. -/
theorem Routine.heeds_any (x : Routine σ) : ∀ w : World σ, x.heeds .any b w = true := by
  induction x with
  | finish => exact fun w => rfl
  | getHost next ih => exact fun w => ih _ _
  | setHost s next ih => exact fun w => ih _
  | ask q next ih =>
    exact fun w => Bool.and_eq_true_iff.2 ⟨mayBegin_any _ _, Bool.or_eq_true_iff.2 (.inr (ih _ _))⟩
  | call key args expected next ih =>
    refine fun w => Bool.and_eq_true_iff.2 ⟨mayBegin_any _ _, ?_⟩
    rcases RunM.call b key args expected w with _ | p
    · rfl
    · exact Bool.or_eq_true_iff.2 (.inr (ih _ _))
  | create key tag next ih =>
    refine fun w => Bool.and_eq_true_iff.2 ⟨mayBegin_any _ _, ?_⟩
    rcases RunM.create b key tag w with _ | p
    · rfl
    · exact Bool.or_eq_true_iff.2 (.inr (ih _ _))
  | runBody x next ih =>
    refine fun w => Bool.and_eq_true_iff.2 ⟨mayBegin_any _ _, ?_⟩
    rcases RunM.runBody b x w with _ | p
    · rfl
    · exact Bool.or_eq_true_iff.2 (.inr (ih _ _))
  | registerExternal key params result callback next _ ih => exact fun w => ih _ _
  | overrideFunction key params result callback next _ ih => exact fun w => ih _ _
  | registerDefault callback next _ ih => exact fun w => ih _

namespace RunM

theorem keeps_callExternal (hR : Stable R) (hb : b.callback.Keeps R) (i : UInt32) :
    Keeps R (callExternal b i) :=
  fun _ _ _ h => hR.governs.callExternal hb.heeds h

theorem keeps_callOverride (hR : Stable R) (hb : b.callback.Keeps R) (i : UInt32) :
    Keeps R (callOverride b i) :=
  fun _ _ _ h => hR.governs.callOverride hb.heeds h

end RunM

/-- Host code keeps what the callbacks and the bodies it runs keep. -/
theorem Routine.keeps_run (hR : Stable R) (hb : b.Keeps R) : (Routine.run b).Keeps R :=
  fun x _ _ _ h => hR.governs.run ⟨hb.callback.heeds, hb.body⟩ (x.heeds_any _) h

/-- Host code keeps a relation, however deep its callbacks nest, if each body keeps it whose
callbacks do. -/
theorem Routine.keeps_runWithin (hR : Stable R)
    (hbody : ∀ {b : Budget σ}, b.callback.Keeps R → b.Keeps R) :
    ∀ n, (runWithin n : RoutineRunner σ).Keeps R
  | 0 => fun _ _ _ _ h => nomatch h
  | n + 1 => keeps_run hR (hbody (keeps_runWithin hR hbody n))

end ScriptMachine
