import ScriptMachine.Proofs.Budget
import ScriptMachine.Proofs.Invariant

/-!
# Moments of a run

A script need not terminate, and a run that does not has no outcome. What it does is given by its
moments: the code that is to run next, in a world. Control goes from one moment to the next past a
part of the run that ends, or into a part that need not end, which is a body or a callback.

* `Moment` – code that is to run, in a world.
* `Starts` – the moment at which a function starts.
* `Goes` – how control goes on.
* `Moment.over_or_goes` – it goes on as long as the run is not over.
* `Passes` – the moments of host code that does only what is permitted.
* `Routine.passes_of_run` – a run that ends has passed from its beginning to its end.
* `Machine.Protects.within_of_passes` – invariants hold at every moment.
-/

namespace ScriptMachine

open Machine

variable {σ : Type}

/-- Code that is to run: host code, or the instructions from `pc` on. -/
inductive Task (σ : Type) where
  | routine (x : Routine σ)
  | body

/-- A moment of a run: code that is to run next, in a world. -/
structure Moment (σ : Type) where
  task : Task σ
  world : World σ

/-! ## What starts -/

/-- A body starts once it is entered. -/
inductive StartsBody (f address : UInt32) (w : World σ) : Moment σ → Prop where
  | entered (depth : w.machine.frames.length < w.machine.config.maxCallDepth) :
      StartsBody f address w ⟨.body, { w with machine := w.machine.entered (some f) address true }⟩

/-- A callback starts once its arguments are taken, the default one once the stack is balanced. -/
inductive StartsExternal (i : UInt32) (w : World σ) : Moment σ → Prop where
  | bound {f : Symbol} {x : Binding σ} {args : List Value} {m : Machine σ}
      (hf : w.machine.script.find (.index i) = .ok f) (he : f.isExternal = true)
      (hx : w.machine.registrations.externals i = some x)
      (ht : takeArguments f x w.machine = (.ok args, m)) :
      StartsExternal i w ⟨.routine (x.callback args), { w with machine := m }⟩
  | unbound {f : Symbol} {g : Symbol → Routine σ} {m : Machine σ}
      (hf : w.machine.script.find (.index i) = .ok f) (he : f.isExternal = true)
      (hx : w.machine.registrations.externals i = none)
      (hb : balance f w.machine = (.ok (), m)) (hg : m.registrations.fallback = some g) :
      StartsExternal i w ⟨.routine (g f), { w with machine := m }⟩

/-- A callback that replaces a function starts once its arguments are taken. -/
inductive StartsOverride (i : UInt32) (w : World σ) : Moment σ → Prop where
  | bound {f : Symbol} {x : Binding σ} {args : List Value} {m : Machine σ}
      (hf : w.machine.script.find (.index i) = .ok f)
      (hx : w.machine.registrations.overrides i = some x)
      (ht : takeArguments f x w.machine = (.ok args, m)) :
      StartsOverride i w ⟨.routine (x.callback args), { w with machine := m }⟩

/-- How a function starts that the host calls. -/
inductive Starts (f : Symbol) (w : World σ) : Moment σ → Prop where
  | override {t : Moment σ} (ho : w.machine.hasOverride f.index = true)
      (h : StartsOverride f.index w t) : Starts f w t
  | external {t : Moment σ} (ho : w.machine.hasOverride f.index = false)
      (he : f.isExternal = true) (h : StartsExternal f.index w t) : Starts f w t
  | body {t : Moment σ} (ho : w.machine.hasOverride f.index = false)
      (he : f.isExternal = false) (h : StartsBody f.index f.address w t) : Starts f w t

/-- How the body of an instance starts. -/
inductive Initializes (x : Handle) (w : World σ) : Moment σ → Prop where
  | body {s : Symbol} {t : Moment σ} (hs : w.machine.checkBody x = .ok s)
      (h : StartsBody s.index s.address { w with machine := w.machine.beginBody s x } t) :
      Initializes x w t

/-! ## How control goes on -/

/-- How control goes from one moment of a run to the next: past a request, or an instruction, that
has an outcome under a budget, or into what it starts. -/
inductive Goes (b : Budget σ) : Moment σ → Moment σ → Prop where
  | getHost {next : σ → Routine σ} {w : World σ} :
      Goes b ⟨.routine (.getHost next), w⟩ ⟨.routine (next w.host), w⟩
  | setHost {s : σ} {next : Routine σ} {w : World σ} :
      Goes b ⟨.routine (.setHost s next), w⟩ ⟨.routine next, { w with host := s }⟩
  | ask {q : Query} {next : q.Reply → Routine σ} {w : World σ} :
      Goes b ⟨.routine (.ask q next), w⟩
        ⟨.routine (.resume (q.ends (q.answer w.machine).1) (next (q.answer w.machine).1)),
          { w with machine := (q.answer w.machine).2 }⟩
  | registerExternal {key : SymbolKey} {params : List Kind} {result : Kind}
      {callback : List Value → Routine σ} {next : Except Error Unit → Routine σ} {w : World σ}
      {r : Except Error Unit} {m : Machine σ}
      (h : Routine.registered w.machine
        (w.machine.registerExternal key ⟨callback, params, result⟩) = (r, m)) :
      Goes b ⟨.routine (.registerExternal key params result callback next), w⟩
        ⟨.routine (next r), { w with machine := m }⟩
  | overrideFunction {key : SymbolKey} {params : List Kind} {result : Kind}
      {callback : List Value → Routine σ} {next : Except Error Unit → Routine σ} {w : World σ}
      {r : Except Error Unit} {m : Machine σ}
      (h : Routine.registered w.machine
        (w.machine.overrideFunction key ⟨callback, params, result⟩) = (r, m)) :
      Goes b ⟨.routine (.overrideFunction key params result callback next), w⟩
        ⟨.routine (next r), { w with machine := m }⟩
  | registerDefault {callback : Symbol → Routine σ} {next : Routine σ} {w : World σ} :
      Goes b ⟨.routine (.registerDefault callback next), w⟩
        ⟨.routine next, { w with machine := w.machine.registerDefault callback }⟩
  /-- A call that ends. -/
  | call {key : SymbolKey} {args : List Value} {expected : Option Kind}
      {next : Except Error Value → Routine σ} {w w' : World σ} {r : Except Error Value}
      (h : RunM.call b key args expected w = some (r, w')) :
      Goes b ⟨.routine (.call key args expected next), w⟩
        ⟨.routine (.resume (Error.ends r) (next r)), w'⟩
  /-- A call that need not end. -/
  | intoCall {key : SymbolKey} {args : List Value} {expected : Option Kind}
      {next : Except Error Value → Routine σ} {w : World σ} {f : Symbol} {s : Signature}
      {t : Moment σ} (ha : Accepts w.machine key args expected f s)
      (h : Starts f { w with machine := w.machine.beginCall f args } t) :
      Goes b ⟨.routine (.call key args expected next), w⟩ t
  | create {key : SymbolKey} {tag : InstanceTag} {next : Except Error Handle → Routine σ}
      {w w' : World σ} {r : Except Error Handle} (h : RunM.create b key tag w = some (r, w')) :
      Goes b ⟨.routine (.create key tag next), w⟩
        ⟨.routine (.resume (Error.ends r) (next r)), w'⟩
  | intoCreate {key : SymbolKey} {tag : InstanceTag} {next : Except Error Handle → Routine σ}
      {w : World σ} {x : Handle} {m : Machine σ} {t : Moment σ} (hu : w.machine.poison = none)
      (ha : alloc key tag w.machine = (.ok x, m)) (h : Initializes x { w with machine := m } t) :
      Goes b ⟨.routine (.create key tag next), w⟩ t
  | runBody {x : Handle} {next : Except Error Unit → Routine σ} {w w' : World σ}
      {r : Except Error Unit} (h : RunM.runBody b x w = some (r, w')) :
      Goes b ⟨.routine (.runBody x next), w⟩
        ⟨.routine (.resume (Error.ends r) (next r)), w'⟩
  | intoBody {x : Handle} {next : Except Error Unit → Routine σ} {w : World σ} {t : Moment σ}
      (h : Initializes x w t) : Goes b ⟨.routine (.runBody x next), w⟩ t
  /-- An instruction that ends, and after which the body goes on. -/
  | step {w w' : World σ} (h : RunM.step b w = some (.ok false, w')) :
      Goes b ⟨.body, w⟩ ⟨.body, w'⟩
  /-- An instruction that need not end. -/
  | intoExternal {w : World σ} {i : Instruction} {f : UInt32} {m : Machine σ} {t : Moment σ}
      (hi : w.machine.script.decode w.machine.pc = .ok i)
      (he : execute i (w.machine.fetched i) = (.ok (.external f), m))
      (h : StartsExternal f { w with machine := m } t) : Goes b ⟨.body, w⟩ t
  | intoOverride {w : World σ} {i : Instruction} {f : UInt32} {m : Machine σ} {t : Moment σ}
      (hi : w.machine.script.decode w.machine.pc = .ok i)
      (he : execute i (w.machine.fetched i) = (.ok (.override f), m))
      (h : StartsOverride f { w with machine := m } t) : Goes b ⟨.body, w⟩ t

/-- Whether nothing is left to run at a moment: host code has finished, or the body is left or
fails. -/
inductive Moment.Over (b : Budget σ) : Moment σ → Prop where
  | finish {o : Except HostFailure Value} {w : World σ} : Over b ⟨.routine (.finish o), w⟩
  | left {w w' : World σ} (h : RunM.step b w = some (.ok true, w')) : Over b ⟨.body, w⟩
  | failed {e : Error} {w w' : World σ} (h : RunM.step b w = some (.error e, w')) :
      Over b ⟨.body, w⟩

/-! ## A run that has no outcome -/

namespace RunM

variable {b : Budget σ} {w : World σ}

/-- The callback of a function has no outcome if running the function has none. -/
theorem exists_of_dispatch_eq_none {f : Symbol} {x : Binding σ} (h : dispatch b f x w = none) :
    ∃ args m, takeArguments f x w.machine = (.ok args, m) := by
  obtain ⟨args, m, ht, -⟩ := onMachine_bind_eq_none.1 h
  exact ⟨args, m, ht⟩

theorem exists_of_dispatchDefault_eq_none {f : Symbol} (h : dispatchDefault b f w = none) :
    ∃ m g, balance f w.machine = (.ok (), m) ∧ m.registrations.fallback = some g := by
  obtain ⟨_, m, hb, h⟩ := onMachine_bind_eq_none.1 h
  rw [machine_bind] at h
  rcases hg : m.registrations.fallback with _ | g
  · rw [hg] at h
    cases h
  · exact ⟨m, g, hb, hg⟩

theorem exists_of_callExternal_eq_none {i : UInt32} (h : callExternal b i w = none) :
    ∃ t, StartsExternal i w t := by
  rw [callExternal, machine_bind, lift_bind] at h
  rcases hf : w.machine.script.find (.index i) with e | f
  · rw [hf] at h
    cases h
  rw [hf] at h
  rcases he : f.isExternal with _ | _
  · simp only [he] at h
    cases h
  simp only [he] at h
  rcases hx : w.machine.registrations.externals i with _ | x
  · rw [hx] at h
    obtain ⟨m, g, hb, hg⟩ := exists_of_dispatchDefault_eq_none h
    exact ⟨_, .unbound hf he hx hb hg⟩
  · rw [hx] at h
    obtain ⟨args, m, ht⟩ := exists_of_dispatch_eq_none h
    exact ⟨_, .bound hf he hx ht⟩

theorem exists_of_callOverride_eq_none {i : UInt32} (h : callOverride b i w = none) :
    ∃ t, StartsOverride i w t := by
  rw [callOverride, machine_bind, lift_bind] at h
  rcases hf : w.machine.script.find (.index i) with e | f
  · rw [hf] at h
    cases h
  rw [hf] at h
  rcases hx : w.machine.registrations.overrides i with _ | x
  · simp only [hx] at h
    cases h
  · simp only [hx] at h
    obtain ⟨args, m, ht⟩ := exists_of_dispatch_eq_none h
    exact ⟨_, .bound hf hx ht⟩

theorem exists_of_runFunction_eq_none {f a : UInt32} (h : runFunction b f a w = none) :
    ∃ t, StartsBody f a w t := by
  rw [runFunction, machine_bind] at h
  obtain ⟨_, m, he, -⟩ := onMachine_bind_eq_none.1 (andThen_eq_none.1 h)
  exact ⟨_, .entered (enter_ok he).1⟩

theorem exists_of_invoke_eq_none {f : Symbol} (h : invoke b f w = none) :
    ∃ t, Starts f w t := by
  rw [invoke, machine_bind] at h
  rcases ho : w.machine.hasOverride f.index with _ | _
  · rcases he : f.isExternal with _ | _
    · rw [ho, he] at h
      obtain ⟨t, ht⟩ := exists_of_runFunction_eq_none h
      exact ⟨t, .body ho he ht⟩
    · rw [ho, he] at h
      obtain ⟨t, ht⟩ := exists_of_callExternal_eq_none h
      exact ⟨t, .external ho he ht⟩
  · rw [ho] at h
    obtain ⟨t, ht⟩ := exists_of_callOverride_eq_none h
    exact ⟨t, .override ho ht⟩

theorem exists_of_call_eq_none {key : SymbolKey} {args : List Value} {expected : Option Kind}
    (h : call b key args expected w = none) :
    ∃ f s t, Accepts w.machine key args expected f s ∧
      Starts f { w with machine := w.machine.beginCall f args } t := by
  rw [call, machine_bind, lift_bind] at h
  rcases checkCall_cases w.machine key args expected with ⟨e, hc, -⟩ | ⟨f, s, hc, ha⟩
  · rw [hc] at h
    cases h
  rw [hc] at h
  simp only [modifyMachine_bind] at h
  rcases bind_eq_none.1 h with h | ⟨v, u, -, h⟩
  · rcases bind_eq_none.1 (andThen_eq_none.1 h) with h | ⟨a, v, -, h⟩
    · obtain ⟨t, ht⟩ := exists_of_invoke_eq_none h
      exact ⟨f, s, t, ha, ht⟩
    · cases h
  · cases h

theorem exists_of_runBody_eq_none {x : Handle} (h : runBody b x w = none) :
    ∃ t, Initializes x w t := by
  rw [runBody, machine_bind, lift_bind] at h
  rcases hs : w.machine.checkBody x with e | s
  · rw [hs] at h
    cases h
  rw [hs] at h
  simp only [modifyMachine_bind] at h
  rcases bind_eq_none.1 h with h | ⟨a, u, -, h⟩
  · obtain ⟨t, ht⟩ := exists_of_runFunction_eq_none (andThen_eq_none.1 h)
    exact ⟨t, .body hs ht⟩
  · cases h

theorem exists_of_create_eq_none {key : SymbolKey} {tag : InstanceTag}
    (h : create b key tag w = none) :
    ∃ x m t, w.machine.poison = none ∧ alloc key tag w.machine = (.ok x, m) ∧
      Initializes x { w with machine := m } t := by
  rw [create, machine_bind, lift_bind] at h
  rcases hu : w.machine.ensureUsable with e | u
  · rw [hu] at h
    cases h
  rw [hu] at h
  obtain ⟨x, m, ha, h⟩ := onMachine_bind_eq_none.1 h
  rcases bind_eq_none.1 h with h | ⟨a, v, -, h⟩
  · obtain ⟨t, ht⟩ := exists_of_runBody_eq_none h
    exact ⟨x, m, t, poison_of_ensureUsable hu, ha, ht⟩
  · cases h

/-- An instruction without an outcome has gone into a callback. -/
theorem exists_of_step_eq_none (h : step b w = none) : ∃ t, Goes b ⟨.body, w⟩ t := by
  rcases hi : w.machine.script.decode w.machine.pc with e | i
  · rw [step_of_decode_error hi] at h
    cases h
  rw [step_of_decode hi] at h
  obtain ⟨flow, m, he, h⟩ := onMachine_bind_eq_none.1 h
  cases flow with
  | next | leave => cases h
  | external f =>
    rcases bind_eq_none.1 h with h | ⟨a, v, -, h⟩
    · obtain ⟨t, ht⟩ := exists_of_callExternal_eq_none h
      exact ⟨t, .intoExternal hi he ht⟩
    · cases h
  | override f =>
    rcases bind_eq_none.1 h with h | ⟨a, v, -, h⟩
    · obtain ⟨t, ht⟩ := exists_of_callOverride_eq_none h
      exact ⟨t, .intoOverride hi he ht⟩
    · cases h

end RunM

/-- Control goes on from every moment at which the run is not over. -/
theorem Moment.over_or_goes (b : Budget σ) (t : Moment σ) : t.Over b ∨ ∃ t', Goes b t t' := by
  obtain ⟨x | _, w⟩ := t
  · cases x with
    | finish => exact .inl .finish
    | getHost => exact .inr ⟨_, .getHost⟩
    | setHost => exact .inr ⟨_, .setHost⟩
    | ask => exact .inr ⟨_, .ask⟩
    | registerExternal => exact .inr ⟨_, .registerExternal rfl⟩
    | overrideFunction => exact .inr ⟨_, .overrideFunction rfl⟩
    | registerDefault => exact .inr ⟨_, .registerDefault⟩
    | call key args expected =>
      rcases h : RunM.call b key args expected w with _ | ⟨r, w'⟩
      · obtain ⟨f, s, t, ha, ht⟩ := RunM.exists_of_call_eq_none h
        exact .inr ⟨t, .intoCall ha ht⟩
      · exact .inr ⟨_, .call h⟩
    | create key tag =>
      rcases h : RunM.create b key tag w with _ | ⟨r, w'⟩
      · obtain ⟨x, m, t, hu, ha, ht⟩ := RunM.exists_of_create_eq_none h
        exact .inr ⟨t, .intoCreate hu ha ht⟩
      · exact .inr ⟨_, .create h⟩
    | runBody x =>
      rcases h : RunM.runBody b x w with _ | ⟨r, w'⟩
      · obtain ⟨t, ht⟩ := RunM.exists_of_runBody_eq_none h
        exact .inr ⟨t, .intoBody ht⟩
      · exact .inr ⟨_, .runBody h⟩
  · rcases h : RunM.step b w with _ | ⟨e | _ | _, w'⟩
    · exact .inr (RunM.exists_of_step_eq_none h)
    · exact .inl (.failed h)
    · exact .inr ⟨_, .step h⟩
    · exact .inl (.left h)

/-! ## Moments of host code that does only what is permitted -/

/-- Whether what is to run at a moment begins with nothing that is not permitted. -/
def Moment.permitted (P : Permission σ) (b : Budget σ) (t : Moment σ) : Bool :=
  match t.task with
  | .routine x => x.mayBegin P b t.world
  | .body => true

/-- Whether control comes from one moment to another while host code does only what is permitted. -/
abbrev Passes (P : Permission σ) (b : Budget σ) : Moment σ → Moment σ → Prop :=
  Relation.ReflTransGen fun t t' => t.permitted P b = true ∧ Goes b t t'

variable {P : Permission σ} {b b' : Budget σ} {t t' : Moment σ}

/-- A run that ends has passed from its beginning to its end. -/
theorem Routine.passes_of_run (x : Routine σ) :
    ∀ {w : World σ} {o : Except HostFailure Value} {w' : World σ}, x.heeds P b w = true →
      run b x w = some (o, w') → Passes P b ⟨.routine x, w⟩ ⟨.routine (.finish o), w'⟩ := by
  induction x using induction_resume with
  | finish outcome =>
    intro w o w' _ h
    obtain ⟨rfl, rfl⟩ := Prod.mk.inj (Option.some.inj h)
    exact .refl
  | getHost next ih => exact fun hx h => .head ⟨rfl, .getHost⟩ (ih _ hx h)
  | setHost s next ih => exact fun hx h => .head ⟨rfl, .setHost⟩ (ih hx h)
  | ask q next ih =>
    intro w o w' hx h
    rw [heeds_ask] at hx
    rw [run_ask] at h
    obtain ⟨hq, hx⟩ := Bool.and_eq_true_iff.1 hx
    exact .head ⟨hq, .ask⟩ (ih _ hx h)
  | call key args expected next ih =>
    intro w o w' hx h
    rw [run_call] at h
    obtain ⟨⟨r, v⟩, hc, h⟩ := Option.bind_eq_some_iff.1 h
    rw [heeds_call hc] at hx
    obtain ⟨hq, hx⟩ := Bool.and_eq_true_iff.1 hx
    exact .head ⟨hq, .call hc⟩ (ih r hx h)
  | create key tag next ih =>
    intro w o w' hx h
    rw [run_create] at h
    obtain ⟨⟨r, v⟩, hc, h⟩ := Option.bind_eq_some_iff.1 h
    rw [heeds_create hc] at hx
    obtain ⟨hq, hx⟩ := Bool.and_eq_true_iff.1 hx
    exact .head ⟨hq, .create hc⟩ (ih r hx h)
  | runBody x next ih =>
    intro w o w' hx h
    rw [run_runBody] at h
    obtain ⟨⟨r, v⟩, hc, h⟩ := Option.bind_eq_some_iff.1 h
    rw [heeds_runBody hc] at hx
    obtain ⟨hq, hx⟩ := Bool.and_eq_true_iff.1 hx
    exact .head ⟨hq, .runBody hc⟩ (ih r hx h)
  | registerExternal key params result callback next ih =>
    exact fun hx h => .head ⟨rfl, .registerExternal rfl⟩ (ih _ hx h)
  | overrideFunction key params result callback next ih =>
    exact fun hx h => .head ⟨rfl, .overrideFunction rfl⟩ (ih _ hx h)
  | registerDefault callback next ih =>
    exact fun hx h => .head ⟨rfl, .registerDefault⟩ (ih hx h)

/-- Host code that does only what is permitted passes from its beginning to its end. -/
theorem Routine.passes_of_runUnder {n : Nat} {x : Routine σ} {w w' : World σ}
    {o : Except HostFailure Value} (h : runUnder P (n + 1) x w = some (o, w')) :
    Passes P (.under P n n) ⟨.routine x, w⟩ ⟨.routine (.finish o), w'⟩ := by
  rw [runUnder] at h
  dsimp only at h
  split at h
  · next hx => exact passes_of_run x hx h
  · cases h

/-- Control goes on in the same way under a budget that allows for more. -/
theorem Goes.below (hb : b.Below b') (hs : b.steps ≤ b'.steps) (h : Goes b t t') :
    Goes b' t t' := by
  cases h with
  | getHost => exact .getHost
  | setHost => exact .setHost
  | ask => exact .ask
  | registerExternal h => exact .registerExternal h
  | overrideFunction h => exact .overrideFunction h
  | registerDefault => exact .registerDefault
  | call h => exact .call (RunM.call_below hb hs _ _ _ _ _ h)
  | intoCall ha h => exact .intoCall ha h
  | create h => exact .create (RunM.create_below hb hs _ _ _ _ h)
  | intoCreate hu ha h => exact .intoCreate hu ha h
  | runBody h => exact .runBody (RunM.runBody_below hb hs _ _ _ h)
  | intoBody h => exact .intoBody h
  | step h => exact .step (RunM.step_below hb _ _ h)
  | intoExternal hi he h => exact .intoExternal hi he h
  | intoOverride hi he h => exact .intoOverride hi he h

theorem Moment.permitted_any (b : Budget σ) (t : Moment σ) : t.permitted .any b = true := by
  obtain ⟨x | _, w⟩ := t
  · exact x.mayBegin_any w
  · rfl

/-- The moments of host code that does only what is permitted are moments of a run. -/
theorem Passes.unrestricted {n steps : Nat} (h : Passes P (.under P n steps) t t') :
    Passes .any (.nested n steps) t t' := by
  have hb : Budget.Below (.under P n steps) (.nested n steps : Budget σ) := fun x w o hx =>
    Routine.runWithin_of_runUnder n x w o (Option.filter_eq_some_iff.1 hx).1
  exact Relation.ReflTransGen.mono
    (fun a _ h => ⟨a.permitted_any _, h.2.below hb (Nat.le_refl steps)⟩) _ _ h

/-! ## Invariants at every moment -/

/-- Whether the machine is usable if a body is to run. -/
def Moment.Ready (t : Moment σ) : Prop := t.task = .body → t.world.machine.poison = none

theorem Moment.Ready.routine (x : Routine σ) (w : World σ) : Ready ⟨.routine x, w⟩ :=
  fun h => nomatch h

namespace Machine.Protects

variable {Q : Machine σ → Prop} {w : World σ} (hQ : Protects P Q)

include hQ

theorem within_of_startsBody {f a : UInt32} (h : StartsBody f a w t)
    (hw : w.machine.poison = none) : Within Q w.machine t.world.machine ∧ t.Ready := by
  cases h with
  | entered depth =>
    exact ⟨.of_change (.enter hw f a depth) fun hq => hQ.moved hq (.entered _ _ _ _), fun _ => hw⟩

theorem within_of_startsExternal {i : UInt32} (h : StartsExternal i w t) :
    Within Q w.machine t.world.machine ∧ t.Ready := by
  have := hQ.governs.toAbsorbs
  cases h with
  | bound _ _ _ ht => exact ⟨keeps_takeArguments _ _ _ _ _ ht, .routine _ _⟩
  | unbound _ _ _ hb => exact ⟨keeps_balance _ _ _ _ hb, .routine _ _⟩

theorem within_of_startsOverride {i : UInt32} (h : StartsOverride i w t) :
    Within Q w.machine t.world.machine ∧ t.Ready := by
  have := hQ.governs.toAbsorbs
  cases h with
  | bound _ _ ht => exact ⟨keeps_takeArguments _ _ _ _ _ ht, .routine _ _⟩

theorem within_of_starts {f : Symbol} (h : Starts f w t) (hw : w.machine.poison = none) :
    Within Q w.machine t.world.machine ∧ t.Ready := by
  cases h with
  | override _ h => exact hQ.within_of_startsOverride h
  | external _ _ h => exact hQ.within_of_startsExternal h
  | body _ _ h => exact hQ.within_of_startsBody h hw

theorem within_of_initializes {x : Handle} (h : Initializes x w t) :
    Within Q w.machine t.world.machine ∧ t.Ready := by
  cases h with
  | @body s _ hs h =>
    have hu : (w.machine.beginBody s x).poison = none := usable_of_checkBody hs
    have hbegin : Within Q w.machine (w.machine.beginBody s x) := hQ.governs.beginBody hs
    exact (hQ.within_of_startsBody h hu).imp_left hbegin.trans

/-- The invariant holds at the next moment, and at every change until then. -/
theorem within_of_goes (hb : b.callback.Heeds P (Within Q)) (hp : t.permitted P b = true)
    (h : Goes b t t') (ht : t.Ready) :
    Within Q t.world.machine t'.world.machine ∧ t'.Ready := by
  have := hQ.governs.toAbsorbs
  cases h with
  | getHost | setHost => exact ⟨.refl _, .routine _ _⟩
  | ask => exact ⟨hQ.governs.answer hp, .routine _ _⟩
  | registerExternal h =>
    obtain ⟨-, rfl⟩ := Prod.mk.inj h.symm
    exact ⟨hQ.governs.registered fun _ h => .registerExternal h, .routine _ _⟩
  | overrideFunction h =>
    obtain ⟨-, rfl⟩ := Prod.mk.inj h.symm
    exact ⟨hQ.governs.registered fun _ h => .overrideFunction h, .routine _ _⟩
  | registerDefault => exact ⟨hQ.governs.plain (.registerDefault _ _), .routine _ _⟩
  | call h => exact ⟨hQ.governs.call (hQ.heeds hb) hp h, .routine _ _⟩
  | @intoCall _ args _ _ w f _ _ ha h =>
    have hbegin : Within Q w.machine (w.machine.beginCall f args) :=
      hQ.governs.beginCall f (List.all_eq_true.1 hp)
    have hu := (poison_beginCall w.machine f args).trans ha.usable
    exact (hQ.within_of_starts h hu).imp_left hbegin.trans
  | @create key tag next w _ _ h =>
    have hp : (Routine.create key tag next).mayBegin P b w = true := hp
    refine ⟨hQ.governs.create (hQ.heeds hb) (fun x m ha => ?_) h, .routine _ _⟩
    rwa [Routine.mayBegin, ha] at hp
  | intoCreate _ ha h =>
    have halloc := keeps_alloc (R := Within Q) _ _ _ _ _ ha
    exact (hQ.within_of_initializes h).imp_left halloc.trans
  | runBody h =>
    exact ⟨hQ.governs.initialized (hQ.heeds hb) hp (RunM.runBody_eq_some h), .routine _ _⟩
  | intoBody h => exact hQ.within_of_initializes h
  | step h =>
    have hw := ht rfl
    exact ⟨hQ.within_of_step hb h hw, fun _ => RunM.usable_of_step h hw⟩
  | intoExternal hi he h =>
    have hexecute := hQ.within_of_execute (ht rfl) hi he
    exact (hQ.within_of_startsExternal h).imp_left hexecute.trans
  | intoOverride hi he h =>
    have hexecute := hQ.within_of_execute (ht rfl) hi he
    exact (hQ.within_of_startsOverride h).imp_left hexecute.trans

/-- The invariant holds at every moment of a run, and at every change. -/
theorem within_of_passes (hb : b.callback.Heeds P (Within Q)) (h : Passes P b t t')
    (ht : t.Ready) : Within Q t.world.machine t'.world.machine ∧ t'.Ready := by
  induction h with
  | refl => exact ⟨.refl _, ht⟩
  | tail _ h ih =>
    obtain ⟨hwithin, hready⟩ := ih
    exact (hQ.within_of_goes hb h.1 h.2 hready).imp_left hwithin.trans

/-- The invariant holds at every moment of host code that does only what is permitted, however deep
its callbacks nest. -/
theorem within_of_passes_under {n steps : Nat} {x : Routine σ}
    (h : Passes P (.under P n steps) ⟨.routine x, w⟩ t) : Within Q w.machine t.world.machine :=
  (hQ.within_of_passes ((hQ.within_of_runUnder n).handing P) h (.routine _ _)).1

end Machine.Protects

/-- Whatever happens up to a moment of a run consists of changes. -/
theorem Passes.evolves {n steps : Nat} {x : Routine σ} {w : World σ}
    (h : Passes .any (.nested n steps) ⟨.routine x, w⟩ t) : Evolves w.machine t.world.machine := by
  have hc : (Budget.nested n steps : Budget σ).callback.Heeds .any (Within fun _ => True) :=
    fun y v o v' hy =>
      ⟨within_true_iff.2 (Routine.evolves_runWithin n y v o v' hy), fun _ _ => rfl⟩
  exact within_true_iff.1 (protects_true.within_of_passes hc h (.routine _ _)).1

end ScriptMachine
