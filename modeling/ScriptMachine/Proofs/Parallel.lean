import ScriptMachine.Proofs.CallDepth
import ScriptMachine.Proofs.Mirror

/-!
# Runs that mirror each other

A run in a world and the same run in a world that mirrors it end alike, provided that callbacks do.
Bodies may be entered in different ways, by the host or by a script: what happens until they are
left is the same, and then each goes back to where it was entered.

* `World.Mirrors`, `RunM.Mirrors` – the relation of worlds, and the runs that respect it.
* `RunM.descend` – a step of a loop that ends once a body is left, however it was entered.
* `RunM.mirrors_descent` – what such loops do in the bodies of two frames.
* `RunM.mirrors_runFunction`, `RunM.mirrors_call`, `RunM.mirrors_runBody` – what the host runs.
-/

namespace ScriptMachine

open Machine

variable {σ α β : Type} {T : Terms σ}

/-- A machine that mirrors a usable one is usable. -/
theorem Machine.Mirrors.poison_eq_none {t t' : List Frame} {m m' : Machine σ}
    (h : m.Mirrors T t t' m') (hu : m.poison = none) : m'.poison = none :=
  isPoisoned_eq_false.1 (h.usable.trans (isPoisoned_eq_false.2 hu))

/-! ## Worlds -/

/-- Whether a world mirrors another one: its host is the same, and its machine mirrors the other
machine. -/
structure World.Mirrors (T : Terms σ) (t t' : List Frame) (w w' : World σ) : Prop where
  host : w'.host = w.host
  machine : w.machine.Mirrors T t t' w'.machine

theorem World.Mirrors.withMachine {t t' : List Frame} {w w' : World σ} {m m' : Machine σ}
    (h : w.Mirrors T t t' w') (hm : m.Mirrors T t t' m') :
    World.Mirrors T t t' { w with machine := m } { w' with machine := m' } :=
  ⟨h.host, hm⟩

/-- Whether a run ends alike in a world and in one that mirrors it. -/
def RunM.Mirrors (T : Terms σ) (x : RunM σ α) : Prop :=
  ∀ ⦃t t' w w' r v⦄, w.Mirrors T t t' w' → x w = some (r, v) → T.Counts r →
    ∃ v', x w' = some (r, v') ∧ v.Mirrors T t t' v'

/-- Whether host code that may be registered ends alike in a world and in one that mirrors it. -/
def RoutineRunner.Mirrors (T : Terms σ) (c : RoutineRunner σ) : Prop :=
  ∀ ⦃x t t' w w' o v⦄, T.callback x → w.Mirrors T t t' w' → c x w = some (o, v) →
    ∃ v', c x w' = some (o, v') ∧ v.Mirrors T t t' v'

namespace RunM

/-! ## Sequences of runs -/

namespace Mirrors

protected theorem pure (a : α) : Mirrors T (pure a : RunM σ α) := by
  intro t t' w w' r v h hx _
  obtain ⟨rfl, rfl⟩ := Prod.mk.inj (Option.some.inj hx)
  exact ⟨w', rfl, h⟩

protected theorem throw (e : Error) : Mirrors T (throw e : RunM σ α) := by
  intro t t' w w' r v h hx _
  obtain ⟨rfl, rfl⟩ := Prod.mk.inj (Option.some.inj hx)
  exact ⟨w', rfl, h⟩

protected theorem bind {x : RunM σ α} {f : α → RunM σ β} (hx : Mirrors T x)
    (hf : ∀ a, Mirrors T (f a)) : Mirrors T (x >>= f) := by
  intro t t' w w' r v h hb hr
  rcases bind_eq_some.1 hb with ⟨a, u, h₁, h₂⟩ | ⟨e, h₁, rfl⟩
  · obtain ⟨u', hx', hu⟩ := hx h h₁ (Terms.counts_ok a)
    obtain ⟨v', hf', hv⟩ := hf a hu h₂ hr
    exact ⟨v', (bind_of_ok hx').trans hf', hv⟩
  · obtain ⟨v', hx', hv⟩ := hx h h₁ (hr.error e)
    exact ⟨v', bind_of_error hx', hv⟩

protected theorem onMachine {x : MachineM σ α} (hx : MachineM.Mirrors T x) :
    Mirrors T (onMachine x) := by
  intro t t' w w' r v h hm hr
  obtain ⟨hm, hv⟩ := onMachine_eq_some.1 hm
  obtain ⟨n', hx', hn⟩ := hx h.machine hm hr
  refine ⟨_, onMachine_of_eq hx', ?_, hn⟩
  rw [hv]
  exact h.host

protected theorem modifyMachine {f : Machine σ → Machine σ}
    (hf : ∀ {t t' m m'}, m.Mirrors T t t' m' → (f m).Mirrors T t t' (f m')) :
    Mirrors T (modifyMachine f) := by
  intro t t' w w' r v h hx _
  obtain ⟨rfl, rfl⟩ := Prod.mk.inj (Option.some.inj hx)
  exact ⟨_, rfl, h.host, hf h.machine⟩

/-- What both machines find decides how both runs go on. -/
protected theorem machine {g : Machine σ → β} {f : β → RunM σ α}
    (hg : ∀ {t t' m m'}, m.Mirrors T t t' m' → g m' = g m) (hf : ∀ b, Mirrors T (f b)) :
    Mirrors T (machine >>= fun m => f (g m)) := by
  intro t t' w w' r v h hx hr
  rw [machine_bind] at hx ⊢
  rw [hg h.machine]
  exact hf _ h hx hr

/-- What is checked decides how a run goes on. -/
protected theorem lift {x : Except Error β} {f : β → RunM σ α} (hf : ∀ b, Mirrors T (f b)) :
    Mirrors T ((liftM x : RunM σ β) >>= f) := by
  rcases x with e | b
  · exact .throw e
  · exact hf b

/-- What needs a condition that does not depend on the machines is refused on both or on none. -/
protected theorem guard {c : Bool} {e : Error} {x : RunM σ α} (hx : Mirrors T x) :
    Mirrors T (if (!c) = true then (throw e : RunM σ PUnit) >>= fun _ => x else x) := by
  cases c with
  | false => exact .bind (.throw e) fun _ => hx
  | true => exact hx

/-- A change of the machine behind a run is made to both machines. -/
protected theorem andThen {x : RunM σ α} {f : Except Error α → Machine σ → Machine σ}
    (hx : Mirrors T x)
    (hf : ∀ {r t t' m m'}, T.Counts r → m.Mirrors T t t' m' → (f r m).Mirrors T t t' (f r m')) :
    Mirrors T (x.andThen f) := by
  intro t t' w w' r v h ha hr
  obtain ⟨u, hu, rfl⟩ := andThen_eq_some.1 ha
  obtain ⟨u', hu', hm⟩ := hx h hu hr
  exact ⟨_, andThen_eq_some.2 ⟨u', hu', rfl⟩, hm.host, hf hr hm.machine⟩

/-- An error makes both machines unusable. -/
protected theorem poisonOnError {x : RunM σ α} (hx : Mirrors T x) :
    Mirrors T (x.onError fun e m => m.poisonWith e) := by
  refine hx.andThen fun {r t t' m m'} hr h => ?_
  cases r with
  | ok => exact h
  | error e =>
    obtain ⟨traced, P, hT⟩ := hr.exists_strict
    exact h.poisonWith hT e

end Mirrors

/-! ## Callbacks -/

section

variable {b : Budget σ} (hb : b.callback.Mirrors T)

include hb

theorem mirrors_callback (f : Symbol) {x : Routine σ} (hx : T.callback x) :
    Mirrors T (callback b f x) := by
  intro t t' w w' r v h hc _
  obtain ⟨o, ho, rfl⟩ := callback_eq_some.1 hc
  obtain ⟨v', ho', hv⟩ := hb hx h ho
  exact ⟨v', callback_eq_some.2 ⟨o, ho', rfl⟩, hv⟩

theorem mirrors_dispatch (f : Symbol) {x : Binding σ} (hx : ∀ args, T.callback (x.callback args)) :
    Mirrors T (dispatch b f x) :=
  .bind (.onMachine (mirrors_takeArguments f x)) fun args =>
    .bind (mirrors_callback hb f (hx args)) fun v => .onMachine (mirrors_giveResult f x v)

theorem mirrors_dispatchDefault (f : Symbol) : Mirrors T (dispatchDefault b f) := by
  refine .bind (.onMachine (mirrors_balance f)) fun _ => ?_
  have hend : Mirrors T (machine >>= fun m => (liftM m.ensureUsable : RunM σ Unit)) :=
    .machine (g := ensureUsable) (f := fun x => liftM x) (fun h => h.ensureUsable) fun x => by
      cases x with
      | error e => exact .throw e
      | ok u => exact .pure u
  intro t t' w w' r v h hx hr
  rw [machine_bind] at hx ⊢
  rw [h.machine.registrations]
  rcases hg : w.machine.registrations.fallback with _ | g
  · rw [hg] at hx
    exact Mirrors.bind (.modifyMachine fun h => h.reportUnregistered f) (fun _ => hend) h hx hr
  · rw [hg] at hx
    have hcallback := mirrors_callback hb f (h.machine.callbacks.fallback g f hg)
    exact Mirrors.bind hcallback (fun _ => hend) h hx hr

theorem mirrors_callExternal (i : UInt32) : Mirrors T (callExternal b i) := by
  intro t t' w w' r v h hx hr
  rw [callExternal, machine_bind] at hx ⊢
  rw [h.machine.script, h.machine.registrations]
  refine Mirrors.lift (fun f => ?_) h hx hr
  -- both machines have the same callbacks, so the same one is dispatched
  rcases hs : w.machine.registrations.externals i with _ | x
  · exact .guard (mirrors_dispatchDefault hb f)
  · exact .guard (mirrors_dispatch hb f fun args => h.machine.callbacks.externals i x args hs)

theorem mirrors_callOverride (i : UInt32) : Mirrors T (callOverride b i) := by
  intro t t' w w' r v h hx hr
  rw [callOverride, machine_bind] at hx ⊢
  rw [h.machine.script, h.machine.registrations]
  refine Mirrors.lift (fun f => ?_) h hx hr
  split
  · next x hs => exact mirrors_dispatch hb f fun args => h.machine.callbacks.overrides i x args hs
  · exact .throw _

end

end RunM

/-! ## Bodies -/

section

variable {g g' : Frame} {rest rest' : List Frame}

/-- Two machines in the bodies of two frames leave bodies that both entered, or the bodies of the
frames. -/
theorem Machine.Mirrors.leave {m m' : Machine σ} (h : m.Mirrors T (g :: rest) (g' :: rest') m') :
    (m.leave.1 = false ∧ m'.leave.1 = false ∧
        m.leave.2.Mirrors T (g :: rest) (g' :: rest') m'.leave.2) ∨
      m.leave = (g.hostEntry, m.moved rest g.returnPc g.context) ∧
        m'.leave = (g'.hostEntry, m'.moved rest' g'.returnPc g'.context) := by
  obtain ⟨inner, hm, hm', hi⟩ := h.frames
  rw [Machine.leave, Machine.leave, hm, hm']
  cases inner with
  | nil => exact .inr ⟨rfl, rfl⟩
  | cons f inner =>
    obtain ⟨hf, hi⟩ := List.forall_mem_cons.1 hi
    exact .inl ⟨hf, hf, { h with pc := rfl, context := rfl, frames := ⟨inner, rfl, rfl, hi⟩ }⟩

/-- Machines in the bodies of two frames are in more bodies than these were entered on. -/
theorem Machine.Mirrors.length_lt {m m' : Machine σ}
    (h : m.Mirrors T (g :: rest) (g' :: rest') m') :
    rest.length < m.frames.length ∧ rest'.length < m'.frames.length := by
  obtain ⟨inner, hm, hm', hi⟩ := h.frames
  exact ⟨Inside.length_lt ⟨inner, hm, hi⟩, Inside.length_lt ⟨inner, hm', hi⟩⟩

/-- Whether two worlds have mirrored each other in the bodies of two frames, and these were left
then. -/
inductive World.Left (T : Terms σ) (g g' : Frame) (rest rest' : List Frame) :
    World σ → World σ → Prop where
  | intro {w w' : World σ} (h : w.Mirrors T (g :: rest) (g' :: rest') w') :
      Left T g g' rest rest'
        { w with machine := w.machine.moved rest g.returnPc g.context }
        { w' with machine := w'.machine.moved rest' g'.returnPc g'.context }

namespace RunM

variable {b : Budget σ} {w w' v : World σ}

/-- What follows an instruction ends alike, unless it leaves a body. -/
theorem mirrors_follow (hb : b.callback.Mirrors T) {flow : Flow} (hf : flow ≠ .leave) :
    Mirrors T (follow b flow) := by
  cases flow with
  | next => exact .pure false
  | leave => exact absurd rfl hf
  | external f => exact .bind (mirrors_callExternal hb f) fun _ => .pure false
  | override f => exact .bind (mirrors_callOverride hb f) fun _ => .pure false

/-- A step in the bodies of two frames does the same in both worlds, or leaves these bodies. -/
theorem mirrors_step (hb : b.callback.Mirrors T) (h : w.Mirrors T (g :: rest) (g' :: rest') w')
    {r : Except Error Bool} (hs : step b w = some (r, v)) (hr : T.Counts r) :
    ∃ r' v', step b w' = some (r', v') ∧
      (r' = r ∧ v.Mirrors T (g :: rest) (g' :: rest') v' ∨
        r = .ok g.hostEntry ∧ r' = .ok g'.hostEntry ∧ v.Left T g g' rest rest' v') := by
  rcases hi : w.machine.script.decode w.machine.pc with e | i
  · rw [step_of_decode_error hi] at hs
    obtain ⟨rfl, rfl⟩ := Prod.mk.inj (Option.some.inj hs)
    rw [← h.machine.script, ← h.machine.pc] at hi
    exact ⟨_, w', step_of_decode_error hi, .inl ⟨rfl, h⟩⟩
  rw [step_of_decode hi] at hs
  rw [← h.machine.script, ← h.machine.pc] at hi
  rw [step_of_decode hi]
  have hfetched := h.withMachine (h.machine.fetched i)
  have hexecute := Mirrors.onMachine (mirrors_execute (T := T) i)
  -- what control does is the same on both machines, but leaving a body depends on its frame
  rcases bind_eq_some.1 hs with ⟨flow, u, h₁, h₂⟩ | ⟨e, h₁, rfl⟩
  · obtain ⟨u', h₁', hu⟩ := hexecute hfetched h₁ (Terms.counts_ok flow)
    rw [bind_of_ok h₁']
    by_cases hflow : flow = .leave
    · rw [hflow] at h₂ ⊢
      obtain ⟨rfl, rfl⟩ := Prod.mk.inj (Option.some.inj h₂)
      refine ⟨_, _, rfl, ?_⟩
      rcases hu.machine.leave with ⟨hl, hl', hm⟩ | ⟨hl, hl'⟩
      · exact .inl ⟨by rw [hl, hl'], hu.host, hm⟩
      · rw [hl, hl']
        exact .inr ⟨rfl, rfl, .intro hu⟩
    · obtain ⟨v', h₂', hv⟩ := mirrors_follow hb hflow hu h₂ hr
      exact ⟨r, v', h₂', .inl ⟨rfl, hv⟩⟩
  · obtain ⟨v', h₁', hv⟩ := hexecute hfetched h₁ (hr.error e)
    exact ⟨_, v', bind_of_error h₁', .inl ⟨rfl, hv⟩⟩

/-- Executes the instruction at `pc`, and says whether there are at most `depth` bodies active
then. -/
def descend (b : Budget σ) (depth : Nat) : RunM σ Bool := do
  let _ ← step b
  return decide ((← machine).frames.length ≤ depth)

theorem descend_of_error {depth : Nat} {e : Error} (h : step b w = some (.error e, v)) :
    descend b depth w = some (.error e, v) :=
  bind_of_error h

theorem descend_of_lt {depth : Nat} {back : Bool} (h : step b w = some (.ok back, v))
    (hd : depth < v.machine.frames.length) : descend b depth w = some (.ok false, v) := by
  rw [descend, bind_of_ok h, machine_bind, decide_eq_false (Nat.not_le_of_lt hd)]
  rfl

theorem descend_of_le {depth : Nat} {back : Bool} (h : step b w = some (.ok back, v))
    (hd : v.machine.frames.length ≤ depth) : descend b depth w = some (.ok true, v) := by
  rw [descend, bind_of_ok h, machine_bind, decide_eq_true hd]
  rfl

/-- What is left of two bodies when their loops end: after an error the machines are still in them,
else both are back where the bodies were entered. -/
def Descended (T : Terms σ) (g g' : Frame) (rest rest' : List Frame) :
    Except Error Unit → World σ → World σ → Prop
  | .ok _, w, w' => w.Left T g g' rest rest' w'
  | .error _, w, w' => w.Mirrors T (g :: rest) (g' :: rest') w'

/-- Loops in the bodies of two frames end alike. -/
theorem mirrors_descent (hb : b.callback.Mirrors T) {r : Except Error Unit} (hr : T.Counts r) :
    ∀ {n : Nat} {w w' : World σ}, w.Mirrors T (g :: rest) (g' :: rest') w' →
      repeatStep (descend b rest.length) n w = some (r, v) →
      ∃ v', repeatStep (descend b rest'.length) n w' = some (r, v') ∧
        Descended T g g' rest rest' r v v' := by
  intro n
  -- on the number of steps allowed, from any worlds that mirror each other in the bodies
  induction n with
  | zero => exact fun _ h => nomatch h
  | succ n ih =>
    intro w w' h hs
    rw [repeatStep] at hs ⊢
    rcases hstep : step b w with _ | ⟨e | back, u⟩
    · have hd : descend b rest.length w = none := bind_eq_none.2 (.inl hstep)
      rw [hd] at hs
      cases hs
    · rw [descend_of_error hstep] at hs
      obtain ⟨rfl, rfl⟩ := Prod.mk.inj (Option.some.inj hs)
      obtain ⟨r', u', hstep', ⟨rfl, hu⟩ | ⟨he, -⟩⟩ := mirrors_step hb h hstep (hr.error e)
      · rw [descend_of_error hstep']
        exact ⟨u', rfl, hu⟩
      · cases he
    obtain ⟨r', u', hstep', ⟨rfl, hu⟩ | ⟨-, rfl, hu⟩⟩ :=
      mirrors_step hb h hstep (Terms.counts_ok back)
    · -- both are still in the bodies, and the loops go on
      obtain ⟨hlt, hlt'⟩ := hu.machine.length_lt
      rw [descend_of_lt hstep hlt] at hs
      rw [descend_of_lt hstep' hlt']
      exact ih hu hs
    · -- both have left the bodies, which ends the loops
      have hle : u.machine.frames.length ≤ rest.length ∧
          u'.machine.frames.length ≤ rest'.length := by
        cases hu
        exact ⟨Nat.le_refl _, Nat.le_refl _⟩
      rw [descend_of_le hstep hle.1] at hs
      rw [descend_of_le hstep' hle.2]
      obtain ⟨rfl, rfl⟩ := Prod.mk.inj (Option.some.inj hs)
      exact ⟨u', rfl, hu⟩

/-- In a body that the host entered, control returns to the host as soon as the body is left. -/
theorem repeatStep_step_eq_descend (hb : b.callback.Keeps SameControl) (hg : g.hostEntry = true) :
    ∀ {n : Nat} {w : World σ}, Inside g rest w.machine →
      repeatStep (step b) n w = repeatStep (descend b rest.length) n w := by
  intro n
  -- both loops take the same steps; while the machine is inside, none of them goes back to the host
  induction n with
  | zero => exact fun _ => rfl
  | succ n ih =>
    intro w hw
    rw [repeatStep, repeatStep]
    rcases hs : step b w with _ | ⟨e | back, v⟩
    · have hd : descend b rest.length w = none := bind_eq_none.2 (.inl hs)
      rw [hd]
    · rw [descend_of_error hs]
    rcases (stepped_of_step hs).inside hb hw with ⟨hv, hr⟩ | ⟨hr, hv, -⟩
    · have hback : back = false := by
        cases back with
        | false => rfl
        | true => exact absurd rfl hr
      rw [hback, descend_of_lt hs hv.length_lt]
      exact ih hv
    · have hback : back = true := (Except.ok.inj hr).trans hg
      rw [hback, descend_of_le hs (Nat.le_of_eq (congrArg List.length hv))]

end RunM

end

/-! ## What the host runs -/

namespace Machine.Mirrors

variable {t t' : List Frame} {m m' u u' : Machine σ}

/-- The host enters the body of the same frame on both machines. -/
theorem hosted (h : m.Mirrors T t t' m') (f a : UInt32) :
    (m.entered (some f) a true).Mirrors T (hostFrame f m :: m.frames) (hostFrame f m :: m'.frames)
      (m'.entered (some f) a true) := by
  refine { h with
    pc := rfl
    traces := fun ht => ⟨congrArg (_ :: ·) (h.frames_eq ht), (h.traces ht).2⟩
    depth := congrArg (· + 1) h.length_frames
    frames := ⟨[], rfl, ?_, nofun⟩ }
  rw [Machine.entered, h.pc, h.context]
  rfl

/-- Machines that go back to where the host entered a body mirror each other in the bodies in which
they did before. -/
theorem returned {g : Frame} (hu : u.Mirrors T (g :: m.frames) (g :: m'.frames) u')
    (h : m.Mirrors T t t' m') :
    (u.moved m.frames g.returnPc g.context).Mirrors T t t'
      (u'.moved m'.frames g.returnPc g.context) :=
  { hu with
    pc := rfl
    context := rfl
    traces := fun ht => ⟨(h.traces ht).1, (hu.traces ht).2⟩
    depth := h.depth
    frames := h.frames }

/-- An error in a body that the host entered makes both machines unusable, and both go back. -/
theorem unwound {traced : Bool} {P : Routine σ → Prop} {g : Frame} (hT : T = .strict traced P)
    (e : Error) (hu : u.Mirrors T (g :: m.frames) (g :: m'.frames) u') (h : m.Mirrors T t t' m') :
    ((u.poisonWith e).unwind m.frames.length).Mirrors T t t'
      ((u'.poisonWith e).unwind m'.frames.length) := by
  have hp := hu.poisonWith hT e
  obtain ⟨inner, hf, hf', hi⟩ := hp.frames
  rw [Inside.unwind ⟨inner, hf, hi⟩, Inside.unwind ⟨inner, hf', hi⟩]
  exact hp.returned h

end Machine.Mirrors

namespace RunM

variable {b : Budget σ}

/-- A body that the host may enter is entered, and then its error is handled. -/
theorem runFunction_eq_onError {f a : UInt32} {w : World σ}
    (hd : w.machine.frames.length < w.machine.config.maxCallDepth) :
    runFunction b f a w =
      onError (loop b) (fun e m => (m.poisonWith e).unwind w.machine.frames.length)
        { w with machine := w.machine.entered (some f) a true } := by
  have henter : enter (some f) a true w.machine =
      (.ok (), w.machine.entered (some f) a true) := by
    rw [enter_apply, if_neg (Nat.not_le_of_lt hd)]
  rw [runFunction, machine_bind, onError, onError, andThen, andThen,
    bind_of_ok (onMachine_of_eq henter)]

/-- It runs until it is left. -/
theorem runFunction_of_lt {f a : UInt32} {w : World σ} (hb : b.callback.Keeps SameControl)
    (hd : w.machine.frames.length < w.machine.config.maxCallDepth) :
    runFunction b f a w =
      onError (repeatStep (descend b w.machine.frames.length) b.steps)
        (fun e m => (m.poisonWith e).unwind w.machine.frames.length)
        { w with machine := w.machine.entered (some f) a true } := by
  have hloop : loop b { w with machine := w.machine.entered (some f) a true } =
      repeatStep (descend b w.machine.frames.length) b.steps
        { w with machine := w.machine.entered (some f) a true } :=
    repeatStep_step_eq_descend hb (g := hostFrame f w.machine) rfl ⟨[], rfl, nofun⟩
  rw [runFunction_eq_onError hd, onError, onError, andThen, andThen, hloop]

section

variable (hb : b.callback.Mirrors T) (hc : b.callback.Keeps SameControl)

include hb hc

theorem mirrors_runFunction (f a : UInt32) : Mirrors T (runFunction b f a) := by
  intro t t' w w' r v h hx hr
  by_cases hd : w.machine.config.maxCallDepth ≤ w.machine.frames.length
  · -- neither machine enters the body
    rw [runFunction_of_full hd] at hx
    obtain ⟨rfl, rfl⟩ := Prod.mk.inj (Option.some.inj hx)
    obtain ⟨traced, P, rfl⟩ := hr.exists_strict
    have hconfig : w'.machine.config = w.machine.config := h.machine.config
    have hd' : w'.machine.config.maxCallDepth ≤ w'.machine.frames.length := by
      rwa [hconfig, h.machine.length_frames]
    rw [runFunction_of_full hd', hconfig]
    exact ⟨_, rfl, h.host, h.machine.poisonWith rfl _⟩
  have hd := Nat.lt_of_not_le hd
  have hroot : World.Mirrors T (hostFrame f w.machine :: w.machine.frames)
      (hostFrame f w.machine :: w'.machine.frames)
      { w with machine := w.machine.entered (some f) a true }
      { w' with machine := w'.machine.entered (some f) a true } :=
    ⟨h.host, h.machine.hosted f a⟩
  rw [runFunction_of_lt hc hd] at hx
  rw [runFunction_of_lt hc (h.machine.maxCallDepth hd)]
  obtain ⟨u, hu, rfl⟩ := andThen_eq_some.1 hx
  obtain ⟨u', hu', hend⟩ := mirrors_descent hb hr hroot hu
  refine ⟨_, andThen_eq_some.2 ⟨u', hu', rfl⟩, ?_⟩
  -- both go back to where the host entered the body, in which they mirrored each other
  rcases r with e | ⟨⟩
  · obtain ⟨traced, P, hT⟩ := hr.exists_strict
    exact ⟨hend.host, Machine.Mirrors.unwound hT e hend.machine h.machine⟩
  · cases hend with
    | intro hv => exact ⟨hv.host, hv.machine.returned h.machine⟩

theorem mirrors_invoke (f : Symbol) : Mirrors T (invoke b f) := by
  intro t t' w w' r v h hx hr
  have ho : w'.machine.hasOverride f.index = w.machine.hasOverride f.index := by
    rw [hasOverride, hasOverride, h.machine.registrations]
  rw [invoke, machine_bind] at hx ⊢
  rw [ho]
  split
  · next hf =>
    rw [if_pos hf] at hx
    exact mirrors_callOverride hb f.index h hx hr
  · next hf =>
    rw [if_neg hf] at hx
    split
    · next he =>
      rw [if_pos he] at hx
      exact mirrors_callExternal hb f.index h hx hr
    · next he =>
      rw [if_neg he] at hx
      exact mirrors_runFunction hb hc f.index f.address h hx hr

/-- A call ends alike on both machines. -/
theorem mirrors_call (key : SymbolKey) (args : List Value) (expected : Option Kind) :
    Mirrors T (call b key args expected) := by
  intro t t' w w' r v h hx hr
  rw [call, machine_bind] at hx ⊢
  rw [h.machine.checkCall, h.machine.stack]
  refine Mirrors.lift (fun p => ?_) h hx hr
  obtain ⟨f, kind⟩ := p
  refine .bind (.modifyMachine fun h => h.beginCall f args) fun _ => ?_
  exact .bind (.poisonOnError (.bind (mirrors_invoke hb hc f) fun _ =>
    .onMachine (mirrors_takeResult f kind _))) fun v => .pure _

/-- The body of an instance ends alike on both machines. -/
theorem mirrors_runBody (x : Handle) : Mirrors T (runBody b x) := by
  intro t t' w w' r v h hx hr
  rw [runBody, machine_bind] at hx ⊢
  rw [h.machine.checkBody, h.machine.displaced]
  refine Mirrors.lift (fun s => ?_) h hx hr
  refine .bind (.modifyMachine fun h => h.beginBody s x) fun _ => ?_
  exact .bind (.andThen (mirrors_runFunction hb hc _ _) fun _ h => h.restore _) fun _ =>
    .onMachine (mirrors_markInitialized x)

end

end RunM

end ScriptMachine
