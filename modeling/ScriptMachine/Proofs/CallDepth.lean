import ScriptMachine.Proofs.Activation
import ScriptMachine.Proofs.Moment

/-!
# How many bodies are active

Each body that is entered, by an instruction or by the host, takes a frame, and the frames are
counted against the limit of the configuration before it starts. A function that the host provides
has no body: it takes no frame and is not counted, so that callbacks may nest deeper than the limit.

* `Machine.Change.bounded`, `Machine.Evolves.bounded` – no change takes a machine over its limit.
* `RunM.call_depth` – the limit holds throughout every run, and a body over it does not start.
* `RunM.not_reentries_bounded` – callbacks that call functions of the host nest beyond the limit.
-/

namespace ScriptMachine

namespace Machine

variable {σ : Type} {m m' : Machine σ}

/-- Whether a machine runs no more bodies than it may. -/
def Bounded (m : Machine σ) : Prop := m.frames.length ≤ m.config.maxCallDepth

/-- A machine that has not run yet runs no body. -/
theorem bounded_new (p : Script) (c : Config) : Bounded (new p c : Machine σ) := Nat.zero_le _

@[simp] theorem length_frames_entered (m : Machine σ) (function : Option UInt32) (target : UInt32)
    (hostEntry : Bool) :
    (m.entered function target hostEntry).frames.length = m.frames.length + 1 := rfl

/-- Leaving a body leaves fewer behind. -/
theorem length_frames_leave (m : Machine σ) : m.leave.2.frames.length ≤ m.frames.length := by
  rw [leave]
  split
  · exact Nat.le_refl _
  · next f rest hf =>
    rw [hf]
    exact Nat.le_succ _

/-- Leaving several bodies leaves fewer behind. -/
theorem length_frames_unwind (m : Machine σ) (base : Nat) :
    (m.unwind base).frames.length ≤ m.frames.length := by
  rw [unwind]
  split
  · split
    · exact Nat.le_refl _
    · next f rest hf =>
      have hdrop := congrArg List.length hf
      rw [List.length_drop, List.length_cons] at hdrop
      show rest.length ≤ m.frames.length
      omega
  · exact Nat.le_refl _

/-- No change makes a machine run more bodies than it may. -/
theorem Change.bounded (h : Change m m') (hm : Bounded m) : Bounded m' := by
  have hc := h.config_eq
  cases h with
  | edit h => rwa [Bounded, hc, h.sameControl.frames]
  | fetch | jump => exact hm
  -- the two ways to enter a body look at the limit first
  | call _ _ _ _ _ depth | enter _ _ _ depth => exact depth
  | leave =>
    rw [Bounded, hc]
    exact Nat.le_trans (length_frames_leave _) hm
  | unwind _ base =>
    rw [Bounded, hc]
    exact Nat.le_trans (length_frames_unwind m base) hm

/-- Changes after each of which a machine runs no more bodies than it may. -/
abbrev EvolvesBounded : Machine σ → Machine σ → Prop :=
  Relation.ReflTransGen fun m m' => Change m m' ∧ Bounded m'

/-- Whatever happens to a machine, its configuration stays, and it never runs more bodies than it
may. -/
theorem Evolves.bounded (h : Evolves m m') (hm : Bounded m) :
    EvolvesBounded m m' ∧ m'.config = m.config ∧ Bounded m' := by
  have hbounded : EvolvesBounded m m' ∧ Bounded m' := by
    induction h with
    | refl => exact ⟨.refl, hm⟩
    | tail _ hc ih =>
      obtain ⟨hev, hb⟩ := ih
      have hb' := hc.bounded hb
      exact ⟨hev.tail ⟨hc, hb'⟩, hb'⟩
  exact ⟨hbounded.1, h.config_eq, hbounded.2⟩

end Machine

/-! ## Small scripts and hosts -/

/-- A class, an instance of it and a function. The bodies of the latter two call the function. -/
def Script.endless : Script :=
  .ofParts 50
    [.blank "C" 0 .cls none,
      { Symbol.blank "THING" 1 .inst (some 0) with flags := .const, count := 0 },
      .body "MAIN" 2 0]
    #[61, 0, 0, 0, 0]

/-- The usual configuration with another limit for active bodies. -/
def Config.deep (limit : Nat) : Config := { Config.default with maxCallDepth := limit }

/-- A machine that may not run any body and has an instance. -/
def World.endless : World Unit :=
  ⟨(), (Machine.alloc (.index 1) .unknown (.new .endless (.deep 0))).2⟩

/-- Two functions that the host provides, and a function that runs the first. -/
def Script.provided : Script :=
  .ofParts 50
    [{ Symbol.blank "HOST" 0 .func none with flags := .union .external .const, count := 0 },
      { Symbol.blank "INNER" 1 .func none with flags := .union .external .const, count := 0 },
      .body "MAIN" 2 0]
    #[62, 0, 0, 0, 0, 60]

/-- A call by a host that counts how many of its calls are active, and keeps the greatest count. -/
def Routine.countedCall (key : SymbolKey) (next : Except Error Value → Routine (Nat × Nat)) :
    Routine (Nat × Nat) :=
  .getHost fun (active, most) => .setHost (active + 1, max most (active + 1)) <|
    .call key [] none fun r =>
      .getHost fun (active, most) => .setHost (active - 1, most) (next r)

/-- A host whose callback for the first function calls the second one. -/
def Routine.reentering : Routine (Nat × Nat) :=
  let callback (x : Routine (Nat × Nat)) : List Value → Routine (Nat × Nat) := fun _ => x
  .registerExternal (.index 0) [] .void
    (callback (.countedCall (.index 1) fun _ => .finish (.ok .void))) fun _ =>
  .registerExternal (.index 1) [] .void (callback (.finish (.ok .void))) fun _ =>
  .countedCall (.index 2) fun r => .finish (r.mapError .raised)

namespace RunM

open Machine

variable {σ : Type} {b : Budget σ} {w : World σ}

/-! ## Bodies that are not entered -/

/-- A body that is called is entered if not too many are active. -/
theorem perform_callBody_of_lt {m : Machine σ} {target : UInt32} (i : Instruction)
    (ho : m.overriding? target = none) (hd : m.frames.length < m.config.maxCallDepth) :
    perform i .callBody (.address target) m =
      (.ok .next,
        m.entered ((m.script.symbolByAddress? target).map (·.index)) target false) := by
  have henter := enter_apply ((m.script.symbolByAddress? target).map (·.index)) target false m
  rw [if_neg (Nat.not_le_of_lt hd)] at henter
  rw [perform, MachineM.get_bind, ← overriding?, ho]
  exact MachineM.bind_eq.2 (.inl ⟨_, _, henter, rfl⟩)

/-- A body that is called is not entered if too many are active. -/
theorem perform_callBody_of_full {m : Machine σ} {target : UInt32} (i : Instruction)
    (ho : m.overriding? target = none) (hd : m.config.maxCallDepth ≤ m.frames.length) :
    perform i .callBody (.address target) m =
      (.error (.callDepthExceeded m.config.maxCallDepth), m) := by
  have henter := enter_apply ((m.script.symbolByAddress? target).map (·.index)) target false m
  rw [if_pos hd] at henter
  rw [perform, MachineM.get_bind, ← overriding?, ho]
  exact MachineM.bind_eq.2 (.inr ⟨_, henter, rfl⟩)

/-- An instruction that calls a body enters it, unless too many are active. Nothing but the fetch of
the instruction has happened then. -/
theorem step_of_bl {i : Instruction} {target : UInt32}
    (hi : w.machine.script.decode w.machine.pc = .ok i) (hbl : i.opcode = .bl)
    (hop : i.operand = .address target) (ho : w.machine.overriding? target = none) :
    step b w =
      if w.machine.config.maxCallDepth ≤ w.machine.frames.length then
        some (.error (.callDepthExceeded w.machine.config.maxCallDepth),
          { w with machine := w.machine.fetched i })
      else
        some (.ok false, { w with
          machine := (w.machine.fetched i).entered
            ((w.machine.script.symbolByAddress? target).map (·.index)) target false }) := by
  have he : execute (σ := σ) i = perform i .callBody (.address target) := by
    rw [execute, hbl, hop]
    rfl
  rw [step_of_decode hi, he]
  by_cases hd : w.machine.config.maxCallDepth ≤ w.machine.frames.length
  · have hp := perform_callBody_of_full (m := w.machine.fetched i) i ho hd
    rw [if_pos hd]
    exact bind_of_error (onMachine_of_eq hp)
  · have hp := perform_callBody_of_lt (m := w.machine.fetched i) i ho (Nat.lt_of_not_le hd)
    rw [if_neg hd, bind_of_ok (onMachine_of_eq hp)]
    rfl

/-- The host enters no body of a machine that runs as many as it may. The machine becomes unusable,
and nothing else happens. -/
theorem runFunction_of_full {f a : UInt32}
    (hd : w.machine.config.maxCallDepth ≤ w.machine.frames.length) :
    runFunction b f a w =
      some (.error (.callDepthExceeded w.machine.config.maxCallDepth), { w with
        machine := w.machine.poisonWith (.callDepthExceeded w.machine.config.maxCallDepth) }) := by
  have henter : enter (some f) a true w.machine =
      (.error (.callDepthExceeded w.machine.config.maxCallDepth), w.machine) := by
    rw [enter_apply, if_pos hd]
  rw [runFunction, machine_bind]
  refine andThen_eq_some.2 ⟨w, ?_, ?_⟩
  · exact bind_of_error (onMachine_of_eq henter)
  · -- no body was entered, so there is none to leave
    have hp := SameControl.poisonWith w.machine (.callDepthExceeded w.machine.config.maxCallDepth)
    simp only [Machine.unwind, hp.frames, if_neg (Nat.lt_irrefl _)]

/-- All that is checked of a call holds of one that passes the checks. -/
theorem checkCall_of_accepts {m : Machine σ} {key : SymbolKey} {args : List Value}
    {expected : Option Kind} {f : Symbol} {s : Signature} (ha : Accepts m key args expected f s) :
    m.checkCall key args expected = .ok (f, s.result) := by
  rcases checkCall_cases m key args expected with ⟨e, -, he⟩ | ⟨g, t, hc, hg⟩
  · exact absurd ha he.not_accepts
  · obtain rfl : g = f := Option.some.inj (hg.found.symm.trans ha.found)
    obtain rfl : t = s := Except.ok.inj (hg.declared.symm.trans ha.declared)
    exact hc

/-- A call of a function that is run through its body fails if too many bodies are active. -/
theorem call_of_full {key : SymbolKey} {args : List Value} {expected : Option Kind} {f : Symbol}
    {s : Signature} (ha : Accepts w.machine key args expected f s)
    (ho : w.machine.hasOverride f.index = false) (he : f.isExternal = false)
    (hd : w.machine.config.maxCallDepth ≤ w.machine.frames.length) :
    call b key args expected w =
      some (.error (.callDepthExceeded w.machine.config.maxCallDepth), { w with
        machine := (w.machine.beginCall f args).poisonWith
          (.callDepthExceeded w.machine.config.maxCallDepth) }) := by
  have hm := restores_beginCall w.machine f args
  have hrun := runFunction_of_full (b := b) (f := f.index) (a := f.address)
    (w := { w with machine := w.machine.beginCall f args })
    (by rw [hm.config, hm.frames]; exact hd)
  simp only [hm.config] at hrun
  have hinvoke : invoke b f { w with machine := w.machine.beginCall f args } =
      runFunction b f.index f.address { w with machine := w.machine.beginCall f args } := by
    have ho : (w.machine.beginCall f args).hasOverride f.index = false := by
      rw [beginCall_eq]
      exact ho
    rw [invoke, machine_bind, ho, he]
    rfl
  rw [call, machine_bind, lift_bind, checkCall_of_accepts ha]
  simp only [modifyMachine_bind]
  refine bind_of_error (andThen_eq_some.2 ⟨_, bind_of_error (hinvoke.trans hrun), ?_⟩)
  -- the machine became unusable when the body was refused, so the call does not fail once more
  have hp := Option.isSome_iff_ne_none.1 (isPoisoned_poisonWith (w.machine.beginCall f args)
    (.callDepthExceeded w.machine.config.maxCallDepth))
  exact congrArg (World.mk w.host) (poisonWith_of_poison hp _).symm

/-- The body of an instance is not run if too many bodies are active. What it would have displaced
stays. -/
theorem runBody_of_full {x : Handle} {s : Symbol} (hs : w.machine.checkBody x = .ok s)
    (hd : w.machine.config.maxCallDepth ≤ w.machine.frames.length) :
    runBody b x w =
      some (.error (.callDepthExceeded w.machine.config.maxCallDepth), { w with
        machine := ((w.machine.beginBody s x).poisonWith
          (.callDepthExceeded w.machine.config.maxCallDepth)).restore w.machine.displaced }) := by
  rw [runBody, machine_bind, lift_bind, hs]
  simp only [modifyMachine_bind]
  have hrun := runFunction_of_full (b := b) (f := s.index) (a := s.address)
    (w := { w with machine := w.machine.beginBody s x }) hd
  exact bind_of_error (andThen_eq_some.2 ⟨_, hrun, rfl⟩)

/-! ## The limit in any run -/

/-- At no moment of a run of host code on a fresh machine, whether the run ends or not, are more
bodies active than the configuration allows. The body that would be one too many does not start:
neither when an instruction calls it, nor when the host calls its function, nor when the host runs
it for an instance. Functions that the host provides have no bodies and are not counted. -/
theorem call_depth (n steps : Nat) :
    (∀ (p : Script) (c : Config) (x : Routine σ) (host : σ) (t : Moment σ),
      Passes .any (.nested n steps) ⟨.routine x, ⟨host, .new p c⟩⟩ t →
      EvolvesBounded (.new p c) t.world.machine ∧ t.world.machine.config = c) ∧
    (∀ (w : World σ) (i : Instruction) (target : UInt32),
      w.machine.script.decode w.machine.pc = .ok i → i.opcode = .bl →
      i.operand = .address target → w.machine.overriding? target = none →
      step (.nested n steps) w =
        if w.machine.config.maxCallDepth ≤ w.machine.frames.length then
          some (.error (.callDepthExceeded w.machine.config.maxCallDepth),
            { w with machine := w.machine.fetched i })
        else
          some (.ok false, { w with
            machine := (w.machine.fetched i).entered
              ((w.machine.script.symbolByAddress? target).map (·.index)) target false })) ∧
    (∀ (w : World σ) (key : SymbolKey) (args : List Value) (expected : Option Kind) (f : Symbol)
      (s : Signature), Accepts w.machine key args expected f s →
      w.machine.hasOverride f.index = false → f.isExternal = false →
      w.machine.config.maxCallDepth ≤ w.machine.frames.length →
      call (.nested n steps) key args expected w =
        some (.error (.callDepthExceeded w.machine.config.maxCallDepth), { w with
          machine := (w.machine.beginCall f args).poisonWith
            (.callDepthExceeded w.machine.config.maxCallDepth) })) ∧
    (∀ (w : World σ) (x : Handle) (s : Symbol), w.machine.checkBody x = .ok s →
      w.machine.config.maxCallDepth ≤ w.machine.frames.length →
      runBody (.nested n steps) x w =
        some (.error (.callDepthExceeded w.machine.config.maxCallDepth), { w with
          machine := ((w.machine.beginBody s x).poisonWith
            (.callDepthExceeded w.machine.config.maxCallDepth)).restore
              w.machine.displaced })) := by
  refine ⟨?_, ?_, ?_, ?_⟩
  · intro p c x host t h
    obtain ⟨hb, hc, -⟩ := h.evolves.bounded (bounded_new p c)
    exact ⟨hb, hc⟩
  · intro w i target hi hbl hop ho
    exact step_of_bl hi hbl hop ho
  · intro w key args expected f s ha ho he hd
    exact call_of_full ha ho he hd
  · intro w x s hs hd
    exact runBody_of_full hs hd

/-- The limit ends a function that calls itself, and no body starts when none is allowed. -/
theorem call_depth_of_endless :
    (∃ w', Routine.run (.nested 1 9) (.call (.index 2) [] none fun _ => .finish (.ok .void))
        ⟨(), .new .endless (.deep 3)⟩ = some (.ok .void, w') ∧
      EvolvesBounded (.new .endless (.deep 3)) w'.machine) ∧
    (∃ w', step (.nested 1 1) World.endless = some (.error (.callDepthExceeded 0), w')) ∧
    (∃ w', call (.nested 1 1) (.index 2) [] none .endless =
      some (.error (.callDepthExceeded 0), w')) ∧
    ∃ w', runBody (.nested 1 1) ⟨0, 0, 1, .unknown⟩ .endless =
      some (.error (.callDepthExceeded 0), w') := by
  obtain ⟨w', hrun⟩ : ∃ w', Routine.run (.nested 1 9)
      (.call (.index 2) [] none fun _ => .finish (.ok .void))
      ⟨(), .new .endless (.deep 3)⟩ = some (.ok .void, w') := ⟨_, rfl⟩
  have haccepts : Accepts World.endless.machine (.index 2) [] none (.body "MAIN" 2 0) ⟨[], .void⟩ :=
    ⟨rfl, rfl, rfl, rfl, rfl, fun k hk => nomatch hk⟩
  have hbl : World.endless.machine.script.decode 0 = .ok ⟨0, .bl, .address 0⟩ := rfl
  have hstep := (call_depth 1 1).2.1 World.endless _ _ hbl rfl rfl rfl
  have hcall := (call_depth 1 1).2.2.1 World.endless _ _ _ _ _ haccepts rfl rfl (Nat.zero_le _)
  have hbody := (call_depth 1 1).2.2.2 World.endless ⟨0, 0, 1, .unknown⟩ _ rfl (Nat.zero_le _)
  have hpasses := Routine.passes_of_run _ (Routine.heeds_any _ _) hrun
  exact ⟨⟨w', hrun, ((call_depth 1 9).1 _ _ _ _ _ hpasses).1⟩,
    ⟨_, hstep.trans (if_pos (Nat.zero_le _))⟩, ⟨_, hcall⟩, ⟨_, hbody⟩⟩

/-- Calls of functions that the host provides are not counted: with a limit of one, two calls of the
host are active at once, and both succeed. -/
theorem not_reentries_bounded :
    ∃ w', Routine.run (.nested 3 3) .reentering ⟨(0, 0), .new .provided (.deep 1)⟩ =
        some (.ok .void, w') ∧
      w'.machine.poison = none ∧ w'.host = (0, 2) ∧ w'.machine.config.maxCallDepth = 1 := by
  have hrun : ∃ p ∈ Routine.run (.nested 3 3) .reentering ⟨(0, 0), .new .provided (.deep 1)⟩,
      p.1 = .ok .void ∧ p.2.machine.poison = none ∧ p.2.host = (0, 2) ∧
        p.2.machine.config.maxCallDepth = 1 := by decide +kernel
  obtain ⟨⟨_, w'⟩, h, rfl, hw⟩ := hrun
  exact ⟨w', h, hw⟩

end RunM

end ScriptMachine
