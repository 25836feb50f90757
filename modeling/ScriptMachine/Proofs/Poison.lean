import ScriptMachine.Proofs.Activation

/-!
# Unusable machines

A machine becomes unusable at one moment, by one error, and keeps the bodies that were active at
that moment as its stack trace. Nothing that its host or its callbacks do afterwards changes the
trace or makes the machine usable again, no instruction is executed any more, and whatever would run
a body is refused. If the error happens in a body that runs within others, these are the end of the
trace.

* `Traced` – what a run does to the stack trace.
* `RunM.poison_absorbs` – unusable machines in any run.
-/

namespace ScriptMachine

open Machine

variable {σ : Type} {b : Budget σ} {w w' : World σ}

/-! ## The active bodies as a trace -/

/-- What a frame was entered on is the end of the trace of any machine inside. -/
theorem Machine.traceFrom_suffix (m : Machine σ) (g : Frame) (rest inner : List Frame) :
    ∀ pc, m.traceFrom g.returnPc rest <:+ m.traceFrom pc (inner ++ g :: rest) := by
  induction inner with
  | nil => exact fun pc => List.suffix_cons _ _
  | cons f inner ih => exact fun pc => (ih f.returnPc).trans (List.suffix_cons _ _)

/-- The bodies below a body that the host entered are the end of the trace of any machine inside. -/
theorem Inside.liveTrace_suffix {f : UInt32} {m m' : Machine σ}
    (h : Inside (hostFrame f m) m.frames m') (hs : m'.script = m.script) :
    m.liveTrace <:+ m'.liveTrace := by
  obtain ⟨inner, hf, -⟩ := h
  rw [Machine.liveTrace, Machine.liveTrace, hf, ← traceFrom_congr hs]
  exact m'.traceFrom_suffix (hostFrame f m) m.frames inner m'.pc

/-! ## What a run does to the trace -/

/-- What a run does to the stack trace: one that is there stays, and one that is made ends with the
bodies that were active before. -/
structure Traced (m m' : Machine σ) : Prop extends SameControl m m' where
  stays : ∀ t, m.poison = some t → m'.poison = some t
  made : m.poison = none → ∀ t, m'.poison = some t → m.liveTrace <:+ t

namespace Traced

theorem refl (m : Machine σ) : Traced m m where
  toSameControl := .refl m
  stays _ h := h
  made h t ht := by
    rw [h] at ht
    cases ht

theorem trans {a b c : Machine σ} (h : Traced a b) (h' : Traced b c) : Traced a c where
  toSameControl := h.toSameControl.trans h'.toSameControl
  stays t ht := h'.stays t (h.stays t ht)
  made ha t ht := by
    -- the trace is made in the second part, or in the first and then it stays
    rcases hb : b.poison with _ | u
    · rw [← h.toSameControl.liveTrace_eq]
      exact h'.made hb t ht
    · have hu := h'.stays u hb
      rw [ht, Option.some.injEq] at hu
      rw [hu]
      exact h.made ha u hb

theorem poisonWith (m : Machine σ) (e : Error) : Traced m (m.poisonWith e) where
  toSameControl := .poisonWith m e
  stays t ht := by rw [poisonWith_of_poison (by simp [ht]), ht]
  made hm t ht := by
    rw [poison_poisonWith hm, Option.some.injEq] at ht
    subst ht
    exact List.suffix_rfl

/-- An edit other than a failure does not touch the trace. -/
theorem of_edit {m m' : Machine σ} (h : Edit m m') : Traced m m' := by
  rcases h.poison_eq_or with hp | ⟨-, e, rfl⟩
  · refine ⟨h.sameControl, fun t ht => hp.trans ht, fun hm t ht => ?_⟩
    rw [hp, hm] at ht
    cases ht
  · exact poisonWith m e

end Traced

theorem Machine.stable_traced : Stable (σ := σ) Traced where
  trans h h' := h.trans h'
  edits h := by
    induction h with
    | refl => exact .refl _
    | tail _ h ih => exact ih.trans (.of_edit h)

namespace RunM

/-- A step that fails in a body leaves a trace that ends with the bodies below. -/
theorem suffix_of_failed_step {f : UInt32} {m : Machine σ} {e : Error} {t : List TraceLine}
    (hb : b.callback.Keeps Traced) (h : step b w = some (.error e, w'))
    (hw : Inside (hostFrame f m) m.frames w.machine) (hs : w.machine.script = m.script)
    (hu : w.machine.poison = none) (ht : w'.machine.poison = some t) : m.liveTrace <:+ t := by
  have hfetched : ∀ {i}, Traced (w.machine.fetched i) w'.machine → m.liveTrace <:+ t := by
    intro i hm
    have hi : Inside (hostFrame f m) m.frames (w.machine.fetched i) := hw.of_frames_eq rfl
    exact (hi.liveTrace_suffix hs).trans (hm.made hu t ht)
  generalize hr : (.error e : Except Error Bool) = r at h
  cases stepped_of_step h with
  | undecodable =>
    -- nothing has changed yet, so the machine is still usable
    rw [hu] at ht
    cases ht
  | fails _ hm => exact hfetched (stable_traced.edits hm)
  | external _ _ _ hc => exact hfetched (keeps_callExternal stable_traced hb _ _ _ _ hc)
  | override _ _ _ _ hc => exact hfetched (keeps_callOverride stable_traced hb _ _ _ _ hc)
  | proceeds | jumps | enters | leaves => cases hr

/-- A loop that fails in a body leaves a trace that ends with the bodies below, or stops at a
machine that is usable and still in the body. -/
theorem suffix_of_failed_loop {f : UInt32} {m : Machine σ} {e : Error} {t : List TraceLine}
    (hb : b.callback.Keeps Traced) (h : loop b w = some (.error e, w'))
    (hw : Inside (hostFrame f m) m.frames w.machine) (hs : w.machine.script = m.script)
    (hu : w.machine.poison = none) (ht : (w'.machine.poisonWith e).poison = some t) :
    m.liveTrace <:+ t := by
  have hc : b.callback.Keeps SameControl := fun x w o w' h => (hb x w o w' h).toSameControl
  let I (v : World σ) : Prop :=
    v.machine.script = m.script ∧ v.machine.poison = none ∧
      Inside (hostFrame f m) m.frames v.machine
  have hI : ∀ {v v'}, I v → step b v = some (.ok false, v') → I v' := by
    rintro v v' ⟨hs, hu, hi⟩ h
    refine ⟨((stepped_of_step h).program_eq hc).1.trans hs, usable_of_step h hu, ?_⟩
    rcases (stepped_of_step h).inside hc hi with ⟨hi, -⟩ | ⟨hr, -⟩
    · exact hi
    · cases hr
  obtain ⟨v, ⟨hs, hu, hi⟩, ⟨-, he⟩ | ⟨e', h, he⟩⟩ := exists_last_step hI ⟨hs, hu, hw⟩ h
  · cases he
  rcases hp : w'.machine.poison with _ | t'
  · -- the error itself makes the machine unusable, in the body
    rw [poison_poisonWith hp, Option.some.injEq] at ht
    rw [← ht]
    rcases (stepped_of_step h).inside hc hi with ⟨hi, -⟩ | ⟨hr, -⟩
    · exact hi.liveTrace_suffix (((stepped_of_step h).program_eq hc).1.trans hs)
    · cases hr
  · rw [poisonWith_of_poison (by simp [hp]), hp, Option.some.injEq] at ht
    rw [← ht]
    exact suffix_of_failed_step hb h hi hs hu hp

end RunM

/-- A body does to the trace what its callbacks do. -/
theorem Budget.keeps_traced (hb : b.callback.Keeps Traced) : b.Keeps Traced where
  callback := hb
  body := by
    intro f a w w' r h hu
    have hc : b.callback.Keeps SameControl := fun x w o w' h => (hb x w o w' h).toSameControl
    refine ⟨(RunM.restores_of_runFunction hc h).toSameControl, fun t ht => ?_, fun _ t ht => ?_⟩
    · rw [hu] at ht
      cases ht
    have hin : Inside (hostFrame f w.machine) w.machine.frames
        (w.machine.entered (some f) a true) := ⟨[], rfl, fun f hf => nomatch hf⟩
    cases RunM.runFunction_eq_some h with
    | refused e =>
      rw [unwind_poison, poison_poisonWith hu, Option.some.injEq] at ht
      subst ht
      exact List.suffix_rfl
    | left =>
      rw [RunM.usable_of_runFunction h hu] at ht
      cases ht
    | failed _ hl =>
      rw [unwind_poison] at ht
      exact RunM.suffix_of_failed_loop hb hl hin rfl hu ht

theorem Budget.nested_keeps_traced (n steps : Nat) : (nested n steps : Budget σ).Keeps Traced :=
  keeps_traced (Routine.keeps_runWithin stable_traced keeps_traced n)

namespace RunM

/-! ## Requests to an unusable machine -/

/-- An unusable machine refuses whatever would run a body, and stays as it is. -/
theorem refused_of_poison (b : Budget σ) (h : w.machine.poison ≠ none) :
    (∀ key args expected, call b key args expected w = some (.error .poisoned, w)) ∧
      (∀ key tag, create b key tag w = some (.error .poisoned, w)) ∧
      ∀ x, runBody b x w = some (.error .poisoned, w) := by
  refine ⟨fun key args expected => ?_, fun key tag => ?_, fun x => ?_⟩
  · have hc : w.machine.checkCall key args expected = .error .poisoned := by
      rw [checkCall, ensureUsable_of_poison h]
      rfl
    rw [call, machine_bind, lift_bind, hc]
  · rw [create, machine_bind, lift_bind, ensureUsable_of_poison h]
  · rw [runBody, machine_bind, lift_bind, checkBody_of_poison h]

/-- A host whose callback calls a function that fails, and goes on as if it had not. -/
def swallowing : Routine Unit :=
  .registerExternal (.index 2) [] .void
    (fun _ => .call (.index 1) [] none fun _ => .finish (.ok .void)) fun _ =>
      .call (.index 0) [] none fun _ => .finish (.ok .void)

/-- A script with a body that calls an external function, and one without instructions. -/
def reentered : World Unit :=
  .fresh [.body "MAIN" 0 0, .body "INNER" 1 6,
    { Symbol.body "HOST" 2 0 with flags := .union .const .external }] #[62, 2, 0, 0, 0, 60, 0]

/-- In any run, an unusable machine stays unusable with the stack trace it has, and executes no
instruction. If a run makes a machine unusable, there is one moment and one error that does: the
stack trace is from then on the list of the bodies active at that moment, which ends with those that
were active before the run, and no instruction is executed any more. And an unusable machine refuses
whatever would run a body. -/
theorem poison_absorbs (n steps : Nat) :
    (∀ (x : Routine σ) (w w' : World σ) (o : Except HostFailure Value) (t : List TraceLine),
      Routine.run (.nested n steps) x w = some (o, w') → w.machine.poison = some t →
      w'.machine.poison = some t ∧ w'.machine.stackTrace = t ∧ Silent w.machine w'.machine) ∧
    (∀ (x : Routine σ) (w w' : World σ) (o : Except HostFailure Value) (t : List TraceLine),
      Routine.run (.nested n steps) x w = some (o, w') → w.machine.poison = none →
      w'.machine.poison = some t →
      ∃ m e, Evolves w.machine m ∧ m.poison = none ∧ m.liveTrace = t ∧
        w.machine.liveTrace <:+ t ∧ Evolves (m.poisonWith e) w'.machine ∧
        Silent (m.poisonWith e) w'.machine ∧ w'.machine.stackTrace = t) ∧
    (∀ (b : Budget σ) (w : World σ), w.machine.isPoisoned = true →
      (∀ key args expected, call b key args expected w = some (.error .poisoned, w)) ∧
      (∀ key tag, create b key tag w = some (.error .poisoned, w)) ∧
      ∀ x, runBody b x w = some (.error .poisoned, w)) := by
  have hev := Routine.keeps_run stable_evolves (Budget.nested_keeps_evolves (σ := σ) n steps)
  have htr := Routine.keeps_run stable_traced (Budget.nested_keeps_traced (σ := σ) n steps)
  have htrace : ∀ {m : Machine σ} {t}, m.poison = some t → m.stackTrace = t := by
    intro m t h
    rw [stackTrace, h, Option.getD_some]
  refine ⟨?_, ?_, ?_⟩
  · intro x w w' o t h ht
    obtain ⟨hp, hs⟩ := (hev _ _ _ _ h).of_poison ht
    exact ⟨hp, htrace hp, hs⟩
  · intro x w w' o t h hu ht
    obtain ⟨m, e, hm, hp, hl, hrest⟩ := (hev _ _ _ _ h).exists_failure hu ht
    have hpe : (m.poisonWith e).poison = some t := by rw [poison_poisonWith hp, hl]
    exact ⟨m, e, hm, hp, hl, (htr _ _ _ _ h).made hu t ht, hrest, (hrest.of_poison hpe).2,
      htrace ht⟩
  · intro b w h
    exact refused_of_poison b (Option.isSome_iff_ne_none.1 h)

/-- An error in a nested call makes the machine unusable once, with the bodies of both calls in the
stack trace, though the callback in between does not pass the error on. -/
theorem poison_absorbs_of_swallowing :
    ∃ (w' : World Unit) (m : Machine Unit) (e : Error),
      Routine.run (.nested 2 3) swallowing reentered = some (.ok .void, w') ∧
        m.liveTrace = [⟨"INNER", 7⟩, ⟨"MAIN", 5⟩] ∧ Silent (m.poisonWith e) w'.machine ∧
        w'.machine.stackTrace = [⟨"INNER", 7⟩, ⟨"MAIN", 5⟩] := by
  have hrun : ∃ p ∈ Routine.run (.nested 2 3) swallowing reentered,
      p.1.toOption = some .void ∧
        p.2.machine.poison = some [⟨"INNER", 7⟩, ⟨"MAIN", 5⟩] := by decide +kernel
  obtain ⟨⟨_ | v, w'⟩, h, hv, ht⟩ := hrun
  · cases hv
  obtain rfl : v = .void := Option.some.inj hv
  obtain ⟨m, e, -, -, hm, -, -, hs, ht⟩ := (poison_absorbs 2 3).2.1 _ _ _ _ _ h rfl ht
  exact ⟨w', m, e, h, hm, hs, ht⟩

end RunM

end ScriptMachine
