import Mathlib.Control.Monad.Basic
import ScriptMachine.Proofs.Binding
import ScriptMachine.Proofs.Invariant
import ScriptMachine.Proofs.Trail

/-!
# Activations

Whatever bytecode a body executes, control is back where it was once the body is left. The frame of
the body stays on the list of active bodies, with only frames of calls within the script above it,
until an instruction leaves it or an error unwinds it; and a frame holds all there is to go back to.

* `Inside` – the machines that are in the body of a frame, or deeper.
* `Stepped.inside` – a step stays inside, or leaves the body and goes back to where it was entered.
* `Restores` – whether a machine is back where another one was.
* `RunM.restores_of_runFunction` – a body that the host runs.
-/

namespace ScriptMachine

open Machine

variable {σ : Type}

/-! ## Machines in the body of a frame -/

/-- Whether a machine is in the body of the frame `g`, which was entered on top of `rest`. Bodies
above it were not entered by the host. -/
def Inside (g : Frame) (rest : List Frame) (m : Machine σ) : Prop :=
  ∃ inner, m.frames = inner ++ g :: rest ∧ ∀ f ∈ inner, f.hostEntry = false

section

variable {g : Frame} {rest : List Frame} {m m' : Machine σ}

theorem Inside.of_frames_eq (h : Inside g rest m) (hf : m'.frames = m.frames) :
    Inside g rest m' := by
  obtain ⟨inner, hm, hi⟩ := h
  exact ⟨inner, hf.trans hm, hi⟩

/-- A machine in a body has entered more than what the body was entered on. -/
theorem Inside.length_lt (h : Inside g rest m) : rest.length < m.frames.length := by
  obtain ⟨inner, hm, -⟩ := h
  rw [hm, List.length_append, List.length_cons]
  omega

/-- A body that is entered above stays above. -/
theorem Inside.entered (h : Inside g rest m) (function : Option UInt32) (target : UInt32) :
    Inside g rest (m.entered function target false) := by
  obtain ⟨inner, hm, hi⟩ := h
  refine ⟨⟨function, m.pc, m.context, false⟩ :: inner, ?_, ?_⟩
  · exact congrArg (_ :: ·) hm
  · exact List.forall_mem_cons.2 ⟨rfl, hi⟩

/-- Leaving a body leaves one above, or the body of the frame itself. -/
theorem Inside.leave (h : Inside g rest m) :
    (m.leave.1 = false ∧ Inside g rest m.leave.2) ∨
      m.leave.1 = g.hostEntry ∧
        m.leave.2 = { m with frames := rest, pc := g.returnPc, context := g.context } := by
  obtain ⟨inner, hm, hi⟩ := h
  rw [Machine.leave, hm]
  cases inner with
  | nil => exact .inr ⟨rfl, rfl⟩
  | cons f inner =>
    refine .inl ⟨hi f List.mem_cons_self, inner, rfl, ?_⟩
    exact fun f hf => hi f (List.mem_cons_of_mem _ hf)

/-- Unwinding to what the body was entered on leaves the body and everything above. -/
theorem Inside.unwind (h : Inside g rest m) :
    m.unwind rest.length =
      { m with frames := rest, pc := g.returnPc, context := g.context } := by
  have hl := h.length_lt
  obtain ⟨inner, hm, -⟩ := h
  have hd : m.frames.drop (m.frames.length - rest.length - 1) = g :: rest := by
    have hn : m.frames.length - rest.length - 1 = inner.length := by
      rw [hm, List.length_append, List.length_cons]
      omega
    rw [hn, hm, List.drop_left]
  rw [Machine.unwind, if_pos hl, hd]

end

/-! ## Steps -/

variable {b : Budget σ} {w w' : World σ}

theorem Machine.stable_sameControl : Stable (σ := σ) SameControl where
  trans h h' := h.trans h'
  edits h := by
    induction h with
    | refl => exact .refl _
    | tail _ h ih => exact ih.trans h.sameControl

/-- A step does not change what script is run, nor how. -/
theorem Stepped.program_eq {r : Except Error Bool} (hb : b.callback.Keeps SameControl)
    (h : Stepped b w r w') :
    w'.machine.script = w.machine.script ∧ w'.machine.config = w.machine.config := by
  cases h with
  | undecodable | proceeds | jumps | enters => exact ⟨rfl, rfl⟩
  | fails _ hm =>
    have hc := stable_sameControl.edits hm
    exact ⟨hc.script, hc.config⟩
  | @leaves i =>
    obtain ⟨_, _, _, h⟩ := (w.machine.fetched i).leave_eq_moved
    rw [h]
    exact ⟨rfl, rfl⟩
  | external _ _ _ hc =>
    have hc := RunM.keeps_callExternal stable_sameControl hb _ _ _ _ hc
    exact ⟨hc.script, hc.config⟩
  | override _ _ _ _ hc =>
    have hc := RunM.keeps_callOverride stable_sameControl hb _ _ _ _ hc
    exact ⟨hc.script, hc.config⟩

/-- A step stays inside a body, also when it fails, or it leaves the body and goes back to where
the body was entered. -/
theorem Stepped.inside {g : Frame} {rest : List Frame} {r : Except Error Bool}
    (hb : b.callback.Keeps SameControl) (h : Stepped b w r w') (hw : Inside g rest w.machine) :
    (Inside g rest w'.machine ∧ r ≠ .ok true) ∨
      r = .ok g.hostEntry ∧ w'.machine.frames = rest ∧ w'.machine.pc = g.returnPc ∧
        w'.machine.context = g.context := by
  have hne : ∀ s : Except Error Unit, (s.map fun _ => false) ≠ .ok true := by
    intro s
    cases s <;> exact fun h => nomatch h
  cases h with
  | undecodable => exact .inl ⟨hw, fun h => nomatch h⟩
  | fails _ hm =>
    exact .inl ⟨hw.of_frames_eq (stable_sameControl.edits hm).frames, fun h => nomatch h⟩
  | proceeds | jumps => exact .inl ⟨hw.of_frames_eq rfl, fun h => nomatch h⟩
  | @enters i target =>
    have hf : Inside g rest (w.machine.fetched i) := hw.of_frames_eq rfl
    exact .inl ⟨hf.entered _ target, fun h => nomatch h⟩
  | @leaves i =>
    have hf : Inside g rest (w.machine.fetched i) := hw.of_frames_eq rfl
    rcases hf.leave with ⟨hl, hi⟩ | ⟨hl, hm⟩
    · exact .inl ⟨hi, by rw [hl]; exact fun h => nomatch h⟩
    · refine .inr ⟨congrArg _ hl, ?_⟩
      simp only [hm, and_self]
  | external _ _ _ hc =>
    have hc := RunM.keeps_callExternal stable_sameControl hb _ _ _ _ hc
    exact .inl ⟨hw.of_frames_eq hc.frames, hne _⟩
  | override _ _ _ _ hc =>
    have hc := RunM.keeps_callOverride stable_sameControl hb _ _ _ _ hc
    exact .inl ⟨hw.of_frames_eq hc.frames, hne _⟩

/-! ## Bodies -/

/-- Whether a machine is back where another one was: in the same bodies of the same script, at the
same place, and with the same current instance. -/
structure Restores (m m' : Machine σ) : Prop extends SameControl m m' where
  context : m'.context = m.context

namespace Restores

theorem refl (m : Machine σ) : Restores m m := ⟨.refl m, rfl⟩

theorem trans {a b c : Machine σ} (h : Restores a b) (h' : Restores b c) : Restores a c :=
  ⟨h.toSameControl.trans h'.toSameControl, h'.context.trans h.context⟩

theorem poisonWith (m : Machine σ) (e : Error) : Restores m (m.poisonWith e) := by
  refine ⟨.poisonWith m e, ?_⟩
  rw [Machine.poisonWith]
  split <;> rfl

end Restores

/-- The frame of a body that the host enters on a machine. -/
def hostFrame (function : UInt32) (m : Machine σ) : Frame := ⟨some function, m.pc, m.context, true⟩

namespace RunM

/-- A loop in a body that the host entered goes back to where the body was entered, or fails within
the body. -/
theorem inside_of_loop {f : UInt32} {m : Machine σ} {r : Except Error Unit}
    (hb : b.callback.Keeps SameControl) (h : loop b w = some (r, w'))
    (hw : Inside (hostFrame f m) m.frames w.machine) :
    (w'.machine.script = w.machine.script ∧ w'.machine.config = w.machine.config) ∧
      match r with
      | .ok _ =>
        w'.machine.frames = m.frames ∧ w'.machine.pc = m.pc ∧ w'.machine.context = m.context
      | .error _ => Inside (hostFrame f m) m.frames w'.machine := by
  -- before every step, the machine is in the body and runs the same script
  let I (v : World σ) : Prop :=
    (v.machine.script = w.machine.script ∧ v.machine.config = w.machine.config) ∧
      Inside (hostFrame f m) m.frames v.machine
  have hstep : ∀ {v v' r}, I v → step b v = some (r, v') →
      (v'.machine.script = w.machine.script ∧ v'.machine.config = w.machine.config) ∧
        ((Inside (hostFrame f m) m.frames v'.machine ∧ r ≠ .ok true) ∨
          r = .ok true ∧ v'.machine.frames = m.frames ∧ v'.machine.pc = m.pc ∧
            v'.machine.context = m.context) := by
    rintro v v' r ⟨⟨hs, hc⟩, hi⟩ h
    have h := stepped_of_step h
    obtain ⟨hs', hc'⟩ := h.program_eq hb
    exact ⟨⟨hs'.trans hs, hc'.trans hc⟩, h.inside hb hi⟩
  have hI : ∀ {v v'}, I v → step b v = some (.ok false, v') → I v' := by
    intro v v' hv h
    obtain ⟨hp, ⟨hi, -⟩ | ⟨hr, -⟩⟩ := hstep hv h
    · exact ⟨hp, hi⟩
    · cases hr
  obtain ⟨v, hv, ⟨hs, rfl⟩ | ⟨e, hs, rfl⟩⟩ := exists_last_step hI ⟨⟨rfl, rfl⟩, hw⟩ h
  · obtain ⟨hp, ⟨-, hr⟩ | ⟨-, hm⟩⟩ := hstep hv hs
    · exact absurd rfl hr
    · exact ⟨hp, hm⟩
  · obtain ⟨hp, ⟨hi, -⟩ | ⟨hr, -⟩⟩ := hstep hv hs
    · exact ⟨hp, hi⟩
    · cases hr

/-- A body that the host runs goes back to where it was entered, whether it is left or fails. -/
theorem restores_of_runFunction {f a : UInt32} {r : Except Error Unit}
    (hb : b.callback.Keeps SameControl) (h : runFunction b f a w = some (r, w')) :
    Restores w.machine w'.machine := by
  have hw : Inside (hostFrame f w.machine) w.machine.frames
      (w.machine.entered (some f) a true) := ⟨[], rfl, fun f hf => nomatch hf⟩
  cases runFunction_eq_some h with
  | refused e =>
    -- the body was not entered, so there is nothing to unwind
    have hp := Restores.poisonWith w.machine e
    have hu : (w.machine.poisonWith e).unwind w.machine.frames.length =
        w.machine.poisonWith e := by
      rw [Machine.unwind, hp.frames, if_neg (Nat.lt_irrefl _)]
    simp only [hu]
    exact hp
  | left depth hl =>
    obtain ⟨⟨hs, hc⟩, hf, hpc, hx⟩ := inside_of_loop hb hl hw
    exact ⟨⟨hs, hc, hf, hpc⟩, hx⟩
  | @failed e u depth hl =>
    obtain ⟨⟨hs, hc⟩, hi⟩ := inside_of_loop hb hl hw
    have hp := Restores.poisonWith u.machine e
    have hi := (hi.of_frames_eq hp.frames).unwind
    simp only [hi]
    exact ⟨⟨hp.script.trans hs, hp.config.trans hc, rfl, rfl⟩, rfl⟩

/-- The budget of a run lets bodies go back to where they were entered. -/
theorem nested_keeps_sameControl (n steps : Nat) :
    (Budget.nested n steps : Budget σ).callback.Keeps SameControl :=
  Routine.keeps_runWithin stable_sameControl
    (fun hb => ⟨hb, fun h _ => (restores_of_runFunction hb h).toSameControl⟩) n

end RunM

/-! ## Calls of script functions -/

/-- Taking a result does not touch what a machine runs. -/
theorem Machine.restores_of_popValue (k : Kind) :
    MachineM.Keeps (σ := σ) Restores (popValue k) := by
  rw [popValue]
  split
  · refine .bind .trans (fun m r m' h => ?_) fun _ => .pure .refl _
    rcases pop_eq h with ⟨-, -, rfl⟩ | ⟨e, rest, -, ⟨-, rfl⟩ | ⟨err, -, -, rfl⟩⟩
    · exact .refl m'
    · exact ⟨⟨rfl, rfl, rfl, rfl⟩, rfl⟩
    · exact Restores.trans (b := m.withStack rest) ⟨⟨rfl, rfl, rfl, rfl⟩, rfl⟩ (.poisonWith _ err)
  · exact .pure .refl _

theorem Machine.restores_of_takeResult (f : Symbol) (k : Kind) (depth : Nat) :
    MachineM.Keeps (σ := σ) Restores (takeResult f k depth) := by
  rw [takeResult]
  split
  · exact .pure .refl _
  intro m r m' h
  rw [MachineM.get_bind] at h
  split at h
  · obtain ⟨-, rfl⟩ := Prod.mk.inj h
    exact ⟨⟨rfl, rfl, rfl, rfl⟩, rfl⟩
  · exact restores_of_popValue k _ _ _ h

theorem Machine.restores_beginCall (m : Machine σ) (f : Symbol) (args : List Value) :
    Restores m (m.beginCall f args) := by
  rw [beginCall_eq]
  exact ⟨⟨rfl, rfl, rfl, rfl⟩, rfl⟩

/-- Marking an instance touches neither what a machine runs nor what is bound to a slot. -/
theorem Machine.restores_of_markInitialized {x : Handle} {m m' : Machine σ}
    {r : Except Error Unit} (h : markInitialized x m = (r, m')) (slot : GlobalSlot) :
    Restores m m' ∧ m'.slot slot = m.slot slot := by
  rcases markInitialized_eq h with ⟨memory, hm, -, rfl⟩ | ⟨e, -, rfl⟩
  · refine ⟨⟨⟨rfl, rfl, rfl, rfl⟩, rfl⟩, ?_⟩
    rw [Machine.slot, Machine.slot, Memory.bound, Memory.bound, Memory.globals_markInitialized hm]
    rfl
  · exact ⟨.refl _, rfl⟩

namespace RunM

/-- A call of a function that is run through its body goes back to where it was made. -/
theorem restores_of_call {key : SymbolKey} {args : List Value} {expected : Option Kind}
    {r : Except Error Value} (hb : b.callback.Keeps SameControl)
    (h : call b key args expected w = some (r, w'))
    (hf : ∀ f, w.machine.script.resolve? key = some f →
      w.machine.hasOverride f.index = false ∧ f.isExternal = false) :
    Restores w.machine w'.machine := by
  have hrun : ∀ {f s r u}, Accepts w.machine key args expected f s →
      invoke b f { w with machine := w.machine.beginCall f args } = some (r, u) →
        Restores w.machine u.machine := by
    intro f s r u ha hi
    obtain ⟨ho, he⟩ := hf f ha.found
    have ho : (w.machine.beginCall f args).hasOverride f.index = false := by
      rw [beginCall_eq]
      exact ho
    rcases invoke_eq_some hi with ⟨ho', -⟩ | ⟨he', -⟩ | ⟨-, -, hr⟩
    · exact Bool.noConfusion (ho'.symm.trans ho)
    · exact Bool.noConfusion (he'.symm.trans he)
    · exact (restores_beginCall _ f args).trans (restores_of_runFunction hb hr)
  rcases call_eq_some h with h | ⟨ha, hi⟩ | ⟨ha, hi, ht⟩ | ⟨ha, hi, ht⟩
  · exact .refl _
  · exact (hrun ha hi).trans (.poisonWith _ _)
  · exact ((hrun ha hi).trans (restores_of_takeResult _ _ _ _ _ _ ht)).trans (.poisonWith _ _)
  · exact (hrun ha hi).trans (restores_of_takeResult _ _ _ _ _ _ ht)

/-! ## Bodies of instances -/

/-- The body of an instance goes back to where it was run, and `SELF` is bound to what it was bound
to before. -/
theorem restores_of_runBody {n steps : Nat} {x : Handle} {r : Except Error Unit}
    (h : runBody (.nested n steps) x w = some (r, w')) :
    Restores w.machine w'.machine ∧ w'.machine.slot .self = w.machine.slot .self := by
  have hb := nested_keeps_sameControl (σ := σ) n steps
  have hev := Budget.nested_keeps_evolves (σ := σ) n steps
  -- what the body leaves behind once everything it displaced is put back
  have hrun : ∀ {s r u}, w.machine.checkBody x = .ok s →
      runFunction (.nested n steps) s.index s.address
        { w with machine := w.machine.beginBody s x } = some (r, u) →
      Restores w.machine (u.machine.restore w.machine.displaced) ∧
        (u.machine.restore w.machine.displaced).slot .self = w.machine.slot .self := by
    intro s r u hs hr
    have hu : (w.machine.beginBody s x).poison = none := usable_of_checkBody hs
    have hre := restores_of_runFunction hb hr
    have hbegin : Edits w.machine (w.machine.beginBody s x) := (governs_edits .any).beginBody hs
    have hsize : u.machine.memory.globals.size = w.machine.memory.globals.size :=
      (hev.body hr hu).size_globals.trans hbegin.evolves.size_globals
    exact ⟨⟨⟨hre.script, hre.config, hre.frames, hre.pc⟩, rfl⟩, slot_setSlot hre.script hsize⟩
  rcases runBody_eq_some h with h | ⟨hs, hr⟩ | ⟨hs, hr, hm⟩
  · exact ⟨.refl _, rfl⟩
  · exact hrun hs hr
  · obtain ⟨hre, hself⟩ := hrun hs hr
    have hmark := restores_of_markInitialized hm .self
    exact ⟨hre.trans hmark.1, hmark.2.trans hself⟩

end RunM

/-! ## Calls within the script -/

/-- Steps stay inside a body as long as more is active than what the body was entered on. -/
theorem Trail.inside {g : Frame} {rest : List Frame} {ms : List (Machine σ)}
    (hb : b.callback.Keeps SameControl) (ht : Trail b w ms w') (hw : Inside g rest w.machine)
    (hms : ∀ m ∈ ms, rest.length < m.frames.length)
    (hw' : rest.length < w'.machine.frames.length) : Inside g rest w'.machine := by
  induction ht with
  | refl => exact hw
  | @step w v w' back ms hs ht ih =>
    have hdeep := List.forall_mem_cons.1 hms
    refine ih ?_ hdeep.2 hw'
    rcases (RunM.stepped_of_step hs).inside hb hw with ⟨hi, -⟩ | ⟨-, hf, -⟩
    · exact hi
    · -- the step left the body, but the machine after it is still deeper
      have hv : rest.length < v.machine.frames.length := by
        cases ht with
        | refl => exact hw'
        | step => exact hdeep.2 _ List.mem_cons_self
      rw [hf] at hv
      exact absurd hv (Nat.lt_irrefl _)

namespace RunM

/-- A step with an instruction that leaves a body. -/
theorem step_of_rsr {i : Instruction} (hi : w.machine.script.decode w.machine.pc = .ok i)
    (hrsr : i.opcode = .rsr) :
    step b w = some (.ok (w.machine.fetched i).leave.1,
      { w with machine := (w.machine.fetched i).leave.2 }) := by
  rw [step_of_decode hi]
  have he : execute (σ := σ) i = pure .leave := by
    rw [execute, hrsr]
    rfl
  rw [he]
  rfl

/-- A call within the script that makes more bodies active has put one frame on top, which says to
go on behind the call with the current instance of the caller. -/
theorem frames_of_call {i : Instruction} (hb : b.callback.Keeps SameControl)
    (hi : w.machine.script.decode w.machine.pc = .ok i) (hbl : i.opcode = .bl)
    (h : step b w = some (.ok false, w'))
    (hdeep : w.machine.frames.length < w'.machine.frames.length) :
    ∃ function, w'.machine.frames =
      ⟨function, i.next, w.machine.context, false⟩ :: w.machine.frames := by
  have hop : ∀ {j}, w.machine.script.decode w.machine.pc = .ok j → j = i :=
    fun hj => Except.ok.inj (hj.symm.trans hi)
  generalize hr : (.ok false : Except Error Bool) = r at h
  cases stepped_of_step h with
  | undecodable | fails => cases hr
  | proceeds | jumps => exact absurd hdeep (Nat.lt_irrefl _)
  | enters hi' => exact ⟨_, by rw [hop hi']; rfl⟩
  | leaves hi' hrsr =>
    rw [hop hi', hbl] at hrsr
    cases hrsr
  | external hi' hbe =>
    rw [hop hi', hbl] at hbe
    cases hbe
  | override _ _ _ _ hc =>
    have hc := (keeps_callOverride stable_sameControl hb _ _ _ _ hc).frames
    rw [hc] at hdeep
    exact absurd hdeep (Nat.lt_irrefl _)

/-- The instruction that ends a call within the script goes on behind the call, in the bodies and
with the current instance of the caller. -/
theorem returns_behind_call {i j : Instruction} {w₁ w₂ : World σ} {ms : List (Machine σ)}
    (hb : b.callback.Keeps SameControl) (hi : w.machine.script.decode w.machine.pc = .ok i)
    (hbl : i.opcode = .bl) (hcall : step b w = some (.ok false, w₁)) (ht : Trail b w₁ ms w₂)
    (hms : ∀ m ∈ ms, w.machine.frames.length < m.frames.length)
    (hw₂ : w₂.machine.frames.length = w.machine.frames.length + 1)
    (hj : w₂.machine.script.decode w₂.machine.pc = .ok j) (hrsr : j.opcode = .rsr) :
    ∃ w₃, step b w₂ = some (.ok false, w₃) ∧ w₃.machine.frames = w.machine.frames ∧
      w₃.machine.pc = i.next ∧ w₃.machine.context = w.machine.context := by
  have hdeep : w.machine.frames.length < w₁.machine.frames.length := by
    cases ht with
    | refl => omega
    | step => exact hms _ List.mem_cons_self
  obtain ⟨function, hw₁⟩ := frames_of_call hb hi hbl hcall hdeep
  have hin : Inside ⟨function, i.next, w.machine.context, false⟩ w.machine.frames w₁.machine :=
    ⟨[], hw₁, fun f hf => nomatch hf⟩
  -- the frame of the call is the only one that is left above the caller
  obtain ⟨inner, hf, -⟩ := ht.inside hb hin hms (by omega)
  have hnil : inner = [] := by
    rw [hf, List.length_append, List.length_cons] at hw₂
    exact List.length_eq_zero_iff.1 (by omega)
  rw [hnil, List.nil_append] at hf
  have hl : (w₂.machine.fetched j).leave =
      (false, { w₂.machine.fetched j with
        frames := w.machine.frames, pc := i.next, context := w.machine.context }) := by
    rw [Machine.leave, show (w₂.machine.fetched j).frames = _ from hf]
  have hs := step_of_rsr (b := b) hj hrsr
  rw [hl] at hs
  exact ⟨_, hs, rfl, rfl, rfl⟩

/-! ## Control in any run -/

/-- A body that calls another one, which makes the instance bound to `SELF` the current one. The
machine has a current instance, and none is bound to `SELF`. -/
def switching : World Unit :=
  let w := World.fresh [.body "MAIN" 0 0] #[61, 6, 0, 0, 0, 60, 80, 1, 0, 0, 0, 60]
  { w with machine := { w.machine with context := some ⟨0, 0, 0, .unknown⟩ } }

/-- A body that the host runs goes back to where it was entered, whether it is left or fails,
whatever bytecode it executes and however deep callbacks nest. So does a call of a function that is
run through its body, and so does the body of an instance, which also puts back what was bound to
`SELF`. Within a run, the instruction that ends a call goes on behind the call. -/
theorem control_returns (n steps : Nat) :
    (∀ (f a : UInt32) (w w' : World σ) (r : Except Error Unit),
      runFunction (.nested n steps) f a w = some (r, w') → Restores w.machine w'.machine) ∧
    (∀ (key : SymbolKey) (args : List Value) (expected : Option Kind) (w w' : World σ)
      (r : Except Error Value), call (.nested n steps) key args expected w = some (r, w') →
      (∀ f, w.machine.script.resolve? key = some f →
        w.machine.hasOverride f.index = false ∧ f.isExternal = false) →
      Restores w.machine w'.machine) ∧
    (∀ (x : Handle) (w w' : World σ) (r : Except Error Unit),
      runBody (.nested n steps) x w = some (r, w') →
      Restores w.machine w'.machine ∧ w'.machine.slot .self = w.machine.slot .self) ∧
    (∀ (i j : Instruction) (w w₁ w₂ : World σ) (ms : List (Machine σ)),
      w.machine.script.decode w.machine.pc = .ok i → i.opcode = .bl →
      step (.nested n steps) w = some (.ok false, w₁) → Trail (.nested n steps) w₁ ms w₂ →
      (∀ m ∈ ms, w.machine.frames.length < m.frames.length) →
      w₂.machine.frames.length = w.machine.frames.length + 1 →
      w₂.machine.script.decode w₂.machine.pc = .ok j → j.opcode = .rsr →
      ∃ w₃, step (.nested n steps) w₂ = some (.ok false, w₃) ∧
        w₃.machine.frames = w.machine.frames ∧ w₃.machine.pc = i.next ∧
        w₃.machine.context = w.machine.context) := by
  have hb := nested_keeps_sameControl (σ := σ) n steps
  refine ⟨?_, ?_, ?_, ?_⟩
  · intro f a w w' r h
    exact restores_of_runFunction hb h
  · intro key args expected w w' r h hf
    exact restores_of_call hb h hf
  · intro x w w' r h
    exact restores_of_runBody h
  · intro i j w w₁ w₂ ms hi hbl hcall ht hms hw₂ hj hrsr
    exact returns_behind_call hb hi hbl hcall ht hms hw₂ hj hrsr

/-- A call within the script goes on behind itself with the current instance it had, though the body
it entered left none. -/
theorem control_returns_of_switching :
    (∃ w', runFunction (.nested 1 4) 0 0 switching = some (.ok (), w') ∧
      Restores switching.machine w'.machine) ∧
    ∃ w₂ w₃ : World Unit, w₂.machine.context = none ∧
      step (.nested 1 4) w₂ = some (.ok false, w₃) ∧ w₃.machine.pc = 5 ∧
      w₃.machine.context = switching.machine.context := by
  have hrun : ∃ p ∈ runFunction (.nested 1 4) 0 0 switching, p.1 = .ok () := by decide +kernel
  obtain ⟨⟨_, w'⟩, h, rfl⟩ := hrun
  refine ⟨⟨w', h, (control_returns 1 4).1 _ _ _ _ _ h⟩, ?_⟩
  have hsteps : ∃ p ∈ step (.nested 1 4) switching, ∃ q ∈ step (.nested 1 4) p.2,
      p.1 = .ok false ∧ q.1 = .ok false ∧
        (∀ m ∈ [p.2.machine], switching.machine.frames.length < m.frames.length) ∧
        q.2.machine.frames.length = switching.machine.frames.length + 1 ∧
        q.2.machine.context = none ∧
        q.2.machine.script.decode q.2.machine.pc = .ok ⟨11, .rsr, .none⟩ := by decide +kernel
  obtain ⟨⟨_, w₁⟩, hcall, ⟨_, w₂⟩, hcallee, rfl, rfl, hms, hw₂, hcontext, hrsr⟩ := hsteps
  have hbl : switching.machine.script.decode switching.machine.pc = .ok ⟨0, .bl, .address 6⟩ := rfl
  obtain ⟨w₃, h, -, hpc, hw₃⟩ := (control_returns 1 4).2.2.2 _ _ _ _ _ _ hbl rfl hcall
    (.step hcallee (.refl w₂)) hms hw₂ hrsr rfl
  exact ⟨w₂, w₃, hcontext, h, hpc, hw₃⟩

end RunM

end ScriptMachine
