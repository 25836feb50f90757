import ScriptMachine.Proofs.Arity
import ScriptMachine.Proofs.Reentry

/-!
# Functions that callbacks replace

A script function may be replaced by a callback. The host calls the function by its index, an
instruction by the address of its body, which stands for the first symbol that owns the body there.
If this is the function itself, then the instruction does what the host's call does.

* `Machine.withLog`, `World.withLog` – what is the same but for the log.
* `Machine.Evolves.hasOverride` – a function that is replaced stays so.
* `RunM.rel_of_withLog` – what a run does does not depend on the log.
* `RunM.Substituted` – what an instruction does that calls a replaced function.
* `RunM.override_honoured` – both ways to call a function, with a callback in its place or without.
* `RunM.not_override_honoured` – two functions with one body.
-/

namespace ScriptMachine

variable {σ : Type}

namespace Machine

variable {m m' : Machine σ} {i : Instruction} {f : Symbol} {x : Binding σ} {a j : UInt32}

/-! ## Replaced functions -/

/-- Binding another callback leaves none without one. -/
theorem hasOverride_insert (m : Machine σ) (j : UInt32) (x : Binding σ) {i : UInt32}
    (h : m.hasOverride i = true) : (m.registrations.overrides.insert j x i).isSome = true := by
  by_cases hi : i = j
  · rw [hi, Bindings.insert_self]
    rfl
  · rw [Bindings.insert_of_ne _ hi]
    exact h

theorem Edit.hasOverride (h : Edit m m') (ho : m.hasOverride j = true) :
    m'.hasOverride j = true := by
  cases h with
  | fail h e =>
    rw [poisonWith, h]
    exact ho
  | registerExternal h =>
    obtain ⟨f, -, -, log, rfl, -⟩ := registerExternal_eq_ok h
    exact ho
  | overrideFunction h =>
    obtain ⟨f, -, -, rfl⟩ := overrideFunction_eq_ok h
    exact hasOverride_insert m f.index _ ho
  | reportUnregistered f =>
    rw [Machine.reportUnregistered]
    split <;> exact ho
  | _ => exact ho

theorem Change.hasOverride (h : Change m m') (ho : m.hasOverride j = true) :
    m'.hasOverride j = true := by
  rcases h.edit_or_sameData with h | h
  · exact h.hasOverride ho
  · rw [Machine.hasOverride, h.registrations]
    exact ho

/-- A function that is replaced stays so. -/
theorem Evolves.hasOverride (h : Evolves m m') (ho : m.hasOverride j = true) :
    m'.hasOverride j = true := by
  induction h with
  | refl => exact ho
  | tail _ h ih => exact h.hasOverride ih

/-- A function for which a callback is accepted is replaced. -/
theorem hasOverride_of_overrideFunction {key : SymbolKey} (h : m.overrideFunction key x = .ok m')
    (hf : m.script.scriptFunction key = .ok f) : m'.hasOverride f.index = true := by
  obtain ⟨g, hg, -, rfl⟩ := overrideFunction_eq_ok h
  obtain rfl : f = g := Except.ok.inj (hf.symm.trans hg)
  exact congrArg Option.isSome (Bindings.insert_self ..)

/-- The body at an address is replaced exactly if the function is that the address stands for. -/
theorem overriding?_of_symbolByAddress? (hf : m.script.symbolByAddress? a = some f) :
    m.overriding? a = if m.hasOverride f.index then some f.index else none := by
  rw [overriding?, hf, Option.map_some, Option.filter_some]

/-- An instruction that calls a replaced function leaves the machine to the callback. -/
theorem execute_of_overriding (hbl : i.opcode = .bl) (hop : i.operand = .address a)
    (ho : m.overriding? a = some j) : execute i m = (.ok (.override j), m) := by
  have he : execute (σ := σ) i = perform i .callBody (.address a) := by
    rw [execute, hbl, hop]
    rfl
  rw [he, perform, MachineM.get_bind, ← overriding?, ho]
  rfl

/-! ## Arguments -/

/-- A value that is popped is of the kind asked for, and nothing but the stack changes. -/
theorem popValue_ok {k : Kind} {v : Value} (h : popValue k m = (.ok v, m')) :
    v.kind = k ∧ ∃ s, m' = m.withStack s := by
  by_cases hk : k = .void
  · subst hk
    obtain ⟨rfl, rfl⟩ := MachineM.eq_of_pure (a := Value.void) h
    exact ⟨rfl, m.stack, rfl⟩
  obtain ⟨c, hc, hck⟩ := CellKind.exists_of_ne_void hk
  rw [popValue, hc] at h
  obtain ⟨a, n, hp, hv⟩ := MachineM.bind_eq_ok.1 h
  obtain ⟨rfl, rfl⟩ := MachineM.eq_of_pure hv
  obtain ⟨e, rest, -, -, rfl⟩ := pop_ok hp
  exact ⟨(CellKind.kind_toValue c a).trans hck, rest, rfl⟩

theorem popOnto_ok {ks : List Kind} :
    ∀ {vs rs : List Value} {m : Machine σ}, popOnto vs ks m = (.ok rs, m') →
      rs.map Value.kind = ks.reverse ++ vs.map Value.kind ∧ ∃ s, m' = m.withStack s := by
  induction ks with
  | nil =>
    intro vs rs m h
    obtain ⟨rfl, rfl⟩ := MachineM.eq_of_pure h
    exact ⟨rfl, m.stack, rfl⟩
  | cons k ks ih =>
    intro vs rs m h
    obtain ⟨v, n, hv, h⟩ := MachineM.bind_eq_ok.1 h
    obtain ⟨hk, s, rfl⟩ := popValue_ok hv
    obtain ⟨hks, s', rfl⟩ := ih h
    refine ⟨?_, s', rfl⟩
    rw [hks, List.reverse_cons, List.append_assoc, List.map_cons, hk]
    rfl

/-- A callback whose arguments are taken has been given as many of the kinds it asks for, and
nothing but the stack and the log changes. -/
theorem takeArguments_ok {args : List Value} (h : takeArguments f x m = (.ok args, m')) :
    args.map Value.kind = x.params ∧
      m' = (m.withStack m'.stack).report (.dispatched f.name args) := by
  obtain ⟨rs, n, hp, h⟩ := MachineM.bind_eq_ok.1 h
  obtain ⟨hk, s, rfl⟩ := popOnto_ok hp
  obtain ⟨hargs, rfl⟩ := Prod.mk.inj h
  obtain rfl := Except.ok.inj hargs
  exact ⟨by simpa using hk, rfl⟩

/-- The arguments of a call by the host are those that a callback takes. -/
theorem takeArguments_of_beginCall {args : List Value} (hk : args.map Value.kind = x.params)
    (hx : Kind.void ∉ x.params) (m : Machine σ) :
    takeArguments f x (m.beginCall f args) =
      (.ok args, (m.report (.called f.name)).report (.dispatched f.name args)) := by
  have hes : List.Forall₂ (fun k e => Resolves (m.beginCall f args) k e.1 e.2) x.params
      (args.map fun v => (Entry.value v, v)) := by
    rw [← hk, List.forall₂_map_left_iff, List.forall₂_map_right_iff, List.forall₂_same]
    intro v hv
    refine resolves_value (fun hvoid => hx ?_) _
    rw [← hk]
    exact List.mem_map.2 ⟨v, hv, hvoid⟩
  have hstack : (m.beginCall f args).stack =
      ((args.map fun v => (Entry.value v, v)).map Prod.fst).reverse ++ m.stack := by
    rw [beginCall_eq, List.map_map]
    rfl
  have htake := takeArguments_of_resolves (f := f) hes hstack
  have hvalues : (args.map fun v => (Entry.value v, v)).map Prod.snd = args := by
    rw [List.map_map]
    exact List.map_id args
  rw [hvalues, beginCall_eq] at htake
  rw [beginCall_eq]
  exact htake

/-! ## Machines that differ in their logs -/

/-- The machine with another log. -/
def withLog (m : Machine σ) (log : List LogEvent) : Machine σ := { m with log }

open Routine (Comparing) in
/-- A machine is mirrored by itself with another log, in the same bodies. -/
theorem mirrors_withLog (m : Machine σ) (log : List LogEvent) :
    m.Mirrors (.strict true (Comparing true)) m.frames m.frames (m.withLog log) where
  script := rfl
  config := rfl
  allows := trivial
  stack := rfl
  memory := rfl
  registrations := rfl
  callbacks := ⟨fun _ _ _ _ => .inl rfl, fun _ _ _ _ => .inl rfl, fun _ _ _ => .inl rfl⟩
  pc := rfl
  context := rfl
  usable := rfl
  traces := fun _ => ⟨rfl, rfl⟩
  log := trivial
  depth := rfl
  frames := ⟨[], rfl, rfl, nofun⟩

/-- If stack traces are compared, machines that mirror each other differ in their logs only. -/
theorem Mirrors.eq_withLog {P : Routine σ → Prop} {t t' : List Frame}
    (h : m.Mirrors (.strict true P) t t' m') : m' = m.withLog m'.log := by
  have hconfig : m'.config = m.config := h.config
  have hmemory : m'.memory = m.memory := h.memory
  rw [withLog, ← h.script, ← hconfig, ← h.stack, ← hmemory, ← h.registrations, ← h.frames_eq rfl,
    ← h.pc, ← h.context, ← (h.traces rfl).2]

end Machine

open Machine

/-- The world with another log. -/
def World.withLog (w : World σ) (log : List LogEvent) : World σ :=
  { w with machine := w.machine.withLog log }

namespace RunM

variable {b : Budget σ} {w : World σ}

/-- Whether a run and an instruction after which the body goes on have outcomes that are the same
but for the log. -/
def Alike : Option (Except Error Unit × World σ) → Option (Except Error Bool × World σ) → Prop :=
  Option.Rel fun p q => q.1 = p.1.map (fun _ => false) ∧ q.2 = p.2.withLog q.2.machine.log

/-- What a run does does not depend on the log. -/
theorem alike_of_withLog {x : RunM σ Unit} {w' : World σ}
    (hx : Mirrors (.strict true (Routine.Comparing true)) x) (log : List LogEvent)
    (hw : w' = w.withLog log) : Alike (x w) ((x >>= fun _ => pure false) w') := by
  subst hw
  have hmirrors : w.Mirrors (.strict true (Routine.Comparing true)) w.machine.frames
      w.machine.frames (w.withLog log) := ⟨rfl, mirrors_withLog w.machine log⟩
  rcases hr : x w with _ | ⟨r, v⟩
  · rcases hr' : x (w.withLog log) with _ | ⟨r', v'⟩
    · rw [bind_eq_none.2 (.inl hr')]
      exact .none
    · -- the other way round, the run has an outcome as well
      obtain ⟨v, hv, -⟩ := hx hmirrors.symm hr' trivial
      rw [hr] at hv
      cases hv
  · obtain ⟨v', hr', hv⟩ := hx hmirrors hr trivial
    have hv : v' = v.withLog v'.machine.log :=
      congrArg₂ World.mk hv.host hv.machine.eq_withLog
    cases r with
    | error e =>
      rw [bind_of_error hr']
      exact .some ⟨rfl, hv⟩
    | ok =>
      rw [bind_of_ok hr']
      exact .some ⟨rfl, hv⟩

/-- What follows a run depends on its outcome only. -/
theorem bind_congr_left {α β : Type} {x y : RunM σ α} {f : α → RunM σ β} {v : World σ}
    (h : x w = y v) : (x >>= f) w = (y >>= f) v := by
  have hb (z : RunM σ α) (u : World σ) :
      (z >>= f) u = (z u).bind fun p => ExceptT.bindCont f p.1 p.2 := rfl
  rw [hb, hb, h]

/-! ## Calls of a replaced function -/

section

variable {f : Symbol} {x : Binding σ} {i : Instruction}

theorem callOverride_of_override (hf : w.machine.script.symbolByIndex? f.index = some f)
    (hx : w.machine.registrations.overrides f.index = some x) :
    callOverride b f.index w = dispatch b f x w := by
  rw [callOverride, machine_bind, lift_bind, Script.find, Script.resolve?, hf]
  dsimp only
  rw [hx]

/-- A callback whose arguments are taken is run, and its result is given to the script. -/
theorem dispatch_of_takeArguments {args : List Value} {m : Machine σ}
    (ht : takeArguments f x w.machine = (.ok args, m)) :
    dispatch b f x w =
      (callback b f (x.callback args) >>= fun v => onMachine (giveResult f x v))
        { w with machine := m } :=
  bind_of_ok (onMachine_of_eq ht)

/-- The host's call of a function that is replaced runs the callback. -/
theorem invoke_of_override (hf : w.machine.script.symbolByIndex? f.index = some f)
    (hx : w.machine.registrations.overrides f.index = some x) :
    invoke b f w = dispatch b f x w := by
  have ho : w.machine.hasOverride f.index = true := by
    rw [hasOverride, hx]
    rfl
  rw [invoke, machine_bind, ho, if_pos rfl, callOverride_of_override hf hx]

/-- The host's call of a script function that is not replaced runs its body. -/
theorem invoke_of_not_override (ho : w.machine.hasOverride f.index = false)
    (he : f.isExternal = false) : invoke b f w = runFunction b f.index f.address w := by
  rw [invoke, machine_bind, ho, he]
  rfl

/-- An instruction that calls the body of a replaced function. -/
structure Calls (f : Symbol) (x : Binding σ) (i : Instruction) (w : World σ) : Prop where
  decoded : w.machine.script.decode w.machine.pc = .ok i
  opcode : i.opcode = .bl
  operand : i.operand = .address f.address
  owned : w.machine.script.symbolByAddress? f.address = some f
  found : w.machine.script.symbolByIndex? f.index = some f
  bound : w.machine.registrations.overrides f.index = some x

namespace Calls

variable (h : Calls f x i w)

include h

theorem overriding? : w.machine.overriding? f.address = some f.index := by
  have ho : w.machine.hasOverride f.index = true := by
    rw [hasOverride, h.bound]
    rfl
  rw [overriding?_of_symbolByAddress? h.owned, if_pos ho]

/-- The instruction is executed by leaving the machine to the callback. -/
theorem execute_eq :
    execute i (w.machine.fetched i) = (.ok (.override f.index), w.machine.fetched i) :=
  execute_of_overriding h.opcode h.operand h.overriding?

/-- The instruction runs the callback. -/
theorem step_eq :
    step b w =
      (dispatch b f x >>= fun _ => pure false) { w with machine := w.machine.fetched i } := by
  rw [step_of_decode h.decoded, bind_of_ok (onMachine_of_eq h.execute_eq)]
  exact bind_congr_left (callOverride_of_override h.found h.bound)

/-- No instruction is executed but by the callback. -/
theorem silent {r : Except Error Bool} {w' : World σ} (hs : step b w = some (r, w')) :
    Silent (w.machine.fetched i) w'.machine ∨
      ∃ args u o u', b.callback (x.callback args) u = some (o, u') ∧
        Silent (w.machine.fetched i) u.machine ∧ Silent u'.machine w'.machine := by
  rw [h.step_eq] at hs
  obtain ⟨s, hd, -⟩ := bind_pure_eq_some hs
  cases dispatch_eq_some hd with
  | arguments ht =>
    have hedits : Edits (w.machine.fetched i) _ := keeps_takeArguments _ _ _ _ _ ht
    exact .inl hedits.silent
  | failed ht hc =>
    have hedits : Edits (w.machine.fetched i) _ := keeps_takeArguments _ _ _ _ _ ht
    obtain ⟨o, ho, -⟩ := callback_eq_some.1 hc
    exact .inr ⟨_, _, o, _, ho, hedits.silent, .refl _⟩
  | returned ht hc hg =>
    have hedits : Edits (w.machine.fetched i) _ := keeps_takeArguments _ _ _ _ _ ht
    have hgiven := (governs_edits .any).giveResult rfl hg
    obtain ⟨o, ho, -⟩ := callback_eq_some.1 hc
    exact .inr ⟨_, _, o, _, ho, hedits.silent, hgiven.silent⟩

/-- Control goes behind the instruction, or into the callback. -/
theorem goes {t : Moment σ} (ht : Goes b ⟨.body, w⟩ t) :
    (∃ v, step b w = some (.ok false, v) ∧ t = ⟨.body, v⟩) ∨
      ∃ args m, takeArguments f x (w.machine.fetched i) = (.ok args, m) ∧
        t = ⟨.routine (x.callback args), { w with machine := m }⟩ := by
  -- there is one instruction at `pc`, and there is one thing that it does
  have hexecute : ∀ {j flow m}, w.machine.script.decode w.machine.pc = .ok j →
      execute j (w.machine.fetched j) = (.ok flow, m) →
      flow = .override f.index ∧ m = w.machine.fetched i := by
    intro j flow m hj he
    obtain rfl : i = j := Except.ok.inj (h.decoded.symm.trans hj)
    obtain ⟨hflow, rfl⟩ := Prod.mk.inj (h.execute_eq.symm.trans he)
    exact ⟨(Except.ok.inj hflow).symm, rfl⟩
  cases ht with
  | step hs => exact .inl ⟨_, hs, rfl⟩
  | intoExternal hj he => cases (hexecute hj he).1
  | intoOverride hj he hstart =>
    obtain ⟨hflow, rfl⟩ := hexecute hj he
    obtain rfl := Flow.override.inj hflow
    cases hstart with
    | bound hg hy hargs =>
      obtain rfl := Option.some.inj (h.bound.symm.trans hy)
      have hf : w.machine.script.find (.index f.index) = .ok f := by
        rw [Script.find, Script.resolve?, h.found]
      obtain rfl := Except.ok.inj (hf.symm.trans hg)
      exact .inr ⟨_, _, hargs, rfl⟩

/-- The instruction does what the host's call does with the same entries on the stack. -/
theorem alike (hb : b.callback.Mirrors (.strict true (Routine.Comparing true)))
    (hc : b.callback.Keeps SameControl) :
    Alike (invoke b f { w with machine := w.machine.goto i.next }) (step b w) := by
  have hinvoke : invoke b f { w with machine := w.machine.fetched i } =
      dispatch b f x { w with machine := w.machine.fetched i } :=
    invoke_of_override h.found h.bound
  rw [h.step_eq, ← bind_congr_left hinvoke]
  exact alike_of_withLog (mirrors_invoke hb hc f) (.executed i :: w.machine.log) rfl

/-- The instruction does what the host's call does with the values that the arguments on the stack
have. -/
theorem alike_of_arguments (hb : b.callback.Mirrors (.strict true (Routine.Comparing true)))
    {args : List Value} {m : Machine σ} (hvoid : Kind.void ∉ x.params)
    (ht : takeArguments f x (w.machine.fetched i) = (.ok args, m)) :
    Alike
      (invoke b f { w with
        machine := ((w.machine.goto i.next).withStack m.stack).beginCall f args })
      (step b w) := by
  obtain ⟨hk, hm⟩ := takeArguments_ok ht
  have hhost := takeArguments_of_beginCall (f := f) hk hvoid
    ((w.machine.goto i.next).withStack m.stack)
  have hinvoke : invoke b f { w with
        machine := ((w.machine.goto i.next).withStack m.stack).beginCall f args } =
      dispatch b f x { w with
        machine := ((w.machine.goto i.next).withStack m.stack).beginCall f args } := by
    refine invoke_of_override ?_ ?_
    · rw [beginCall_eq]
      exact h.found
    · rw [beginCall_eq]
      exact h.bound
  -- both run the callback with the same arguments, and on the same machine but for the log
  have hrest : Mirrors (.strict true (Routine.Comparing true))
      (callback b f (x.callback args) >>= fun v => onMachine (giveResult f x v)) :=
    .bind (mirrors_callback hb f (.inl rfl)) fun v => .onMachine (mirrors_giveResult f x v)
  rw [hinvoke, dispatch_of_takeArguments hhost, h.step_eq,
    bind_congr_left (dispatch_of_takeArguments (w := { w with machine := w.machine.fetched i }) ht)]
  refine alike_of_withLog hrest m.log ?_
  rw [hm]
  rfl

end Calls

/-- Whether a callback runs when an instruction calls the function that it replaces. -/
structure Substituted (b : Budget σ) (f : Symbol) (x : Binding σ) (i : Instruction)
    (w : World σ) : Prop where
  /-- With the same entries on the stack, the host's call does the same. -/
  alike : Alike (invoke b f { w with machine := w.machine.goto i.next }) (step b w)
  /-- The values that the callback takes from the stack are accepted from the host, whose call with
  them does the same. A host that passes no value as an argument pushes one that is not taken. -/
  arguments : ∀ args m, takeArguments f x (w.machine.fetched i) = (.ok args, m) →
    Kind.void ∉ x.params →
    (w.machine.poison = none →
      Accepts ((w.machine.goto i.next).withStack m.stack) (.index f.index) args none f
        x.signature) ∧
    Alike
      (invoke b f { w with
        machine := ((w.machine.goto i.next).withStack m.stack).beginCall f args })
      (step b w)
  /-- No instruction is executed but by the callback. -/
  silent : ∀ r w', step b w = some (r, w') →
    Silent (w.machine.fetched i) w'.machine ∨
      ∃ args u o u', b.callback (x.callback args) u = some (o, u') ∧
        Silent (w.machine.fetched i) u.machine ∧ Silent u'.machine w'.machine
  /-- Control goes behind the instruction, or into the callback. -/
  goes : ∀ t, Goes b ⟨.body, w⟩ t →
    (∃ v, step b w = some (.ok false, v) ∧ t = ⟨.body, v⟩) ∨
      ∃ args m, takeArguments f x (w.machine.fetched i) = (.ok args, m) ∧
        t = ⟨.routine (x.callback args), { w with machine := m }⟩

/-- Take a machine that runs a loaded script, and one of its functions. If a callback was accepted
in its place before, then there still is one. The host's call runs this callback, which has the
declared signature, or the body if there is none. An instruction that calls the address of the body
does the same, provided that the address stands for the function. -/
theorem override_honoured (n steps : Nat) {key : SymbolKey} (hm : Reachable w.machine)
    (hf : w.machine.script.scriptFunction key = .ok f) :
    (∀ (m m' : Machine σ) key x, m.script.scriptFunction key = .ok f →
      m.overrideFunction key x = .ok m' → Evolves m' w.machine →
      w.machine.hasOverride f.index = true) ∧
    (∀ x, w.machine.registrations.overrides f.index = some x →
      w.machine.script.declaredSignature f = .ok x.signature ∧
        invoke (.nested n steps) f w = dispatch (.nested n steps) f x w) ∧
    (w.machine.hasOverride f.index = false →
      invoke (.nested n steps) f w = runFunction (.nested n steps) f.index f.address w) ∧
    ∀ i, w.machine.script.decode w.machine.pc = .ok i → i.opcode = .bl →
      i.operand = .address f.address → w.machine.script.symbolByAddress? f.address = some f →
      (∀ x, w.machine.registrations.overrides f.index = some x →
        Substituted (.nested n steps) f x i w) ∧
      (w.machine.hasOverride f.index = false →
        step (.nested n steps) w =
          if w.machine.config.maxCallDepth ≤ w.machine.frames.length then
            some (.error (.callDepthExceeded w.machine.config.maxCallDepth),
              { w with machine := w.machine.fetched i })
          else
            some (.ok false, { w with
              machine := (w.machine.fetched i).entered (some f.index) f.address false })) := by
  obtain ⟨hfind, hcallable, hexternal⟩ := Script.scriptFunction_eq_ok hf
  obtain ⟨hindexed, hmatches⟩ := hm.matches
  have hfound : w.machine.script.symbolByIndex? f.index = some f :=
    hindexed key f hfind (.inr hcallable)
  have hdeclared : ∀ {x}, w.machine.registrations.overrides f.index = some x →
      w.machine.script.declaredSignature f = .ok x.signature := by
    intro x hx
    obtain ⟨g, hg, -, -, hs⟩ := hmatches.override _ x hx
    obtain rfl := Option.some.inj (hfound.symm.trans hg)
    exact hs
  refine ⟨fun m m' key x hk hx hw => hw.hasOverride (hasOverride_of_overrideFunction hx hk),
    fun x hx => ⟨hdeclared hx, invoke_of_override hfound hx⟩,
    fun ho => invoke_of_not_override ho hexternal, fun i hi hbl hop hown => ⟨?_, ?_⟩⟩
  · intro x hx
    have hcalls : Calls f x i w := ⟨hi, hbl, hop, hown, hfound, hx⟩
    have hb : (Budget.nested n steps : Budget σ).callback.Mirrors
        (.strict true (Routine.Comparing true)) := Routine.mirrors_runWithin_strict true n
    refine ⟨hcalls.alike hb (nested_keeps_sameControl n steps), fun args m ht hvoid => ⟨?_, ?_⟩,
      fun _ _ => hcalls.silent, fun _ => hcalls.goes⟩
    · intro hu
      exact ⟨hu, hfound, hcallable, hdeclared hx, (takeArguments_ok ht).1, nofun⟩
    · exact hcalls.alike_of_arguments hb hvoid ht
  · intro ho
    have hnone : w.machine.overriding? f.address = none := by
      rw [overriding?_of_symbolByAddress? hown, ho]
      rfl
    have hstep := step_of_bl (b := .nested n steps) hi hbl hop hnone
    rwa [hown] at hstep

end

end RunM

/-! ## Two functions with one body -/

/-- A function of a number that returns a number. -/
def Symbol.succ : Symbol :=
  { Symbol.body "" 0 0 with
    flags := .union .returns .const, extra := DataType.int.code, count := 1 }

/-- A script with this function and another one, which share a body, and a body that calls it. -/
def Script.sharing : Script :=
  .ofParts 50
    [.succ, { Symbol.blank "" 1 .int none with count := 0, data := .ints [] }, .body "" 2 0,
      .body "" 3 1]
    #[60, 61, 0, 0, 0, 0, 60]

/-- The script as it is compiled. -/
def Script.sharingBytes : List UInt8 :=
  50 :: [4, 0, 0, 0, 0, 0, 2, 0x35001, 0, 0, 0, 0, 0, 0, 0xFFFFFFFF, 0, 0, 0x2000, 0, 0, 0, 0, 0,
    0xFFFFFFFF, 0, 0, 0x15000, 0, 0, 0, 0, 0, 0, 0xFFFFFFFF, 0, 0, 0x15000, 0, 0, 0, 0, 0, 1,
    0xFFFFFFFF, 7].flatMap LittleEndian.encode ++ [60, 61, 0, 0, 0, 0, 60]

/-- A machine that runs the script, with a callback in place of the function at an index. -/
def Machine.sharing (i : UInt32) (x : Binding Unit) : Machine Unit :=
  { (Machine.new .sharing .default).report (.overridden "") with
    registrations.overrides := Bindings.empty.insert i x }

/-- The machine with a number on the stack, at the instruction that calls the shared body. -/
def World.sharing (i : UInt32) (x : Binding Unit) : World Unit :=
  ⟨(), ((Machine.sharing i x).push (.int 5)).entered (some 3) 1 true⟩

/-- A callback that returns the successor of a number. -/
def Binding.succ : Binding Unit where
  callback args := .finish (.ok (match args with | [.int n] => .int (n + 1) | _ => .void))
  params := [.int]
  result := .int

/-- A callback that does nothing. -/
def Binding.idle : Binding Unit := ⟨fun _ => .finish (.ok .void), [], .void⟩

namespace RunM

set_option maxRecDepth 1000 in
theorem reachable_sharing {i : UInt32} {x : Binding Unit}
    (h : (Machine.new .sharing .default).overrideFunction (.index i) x = .ok (.sharing i x)) :
    Reachable (World.sharing i x).machine := by
  have hload : Script.load .windows1252 Script.sharingBytes = .ok .sharing := rfl
  have hdepth : 0 < Config.default.maxCallDepth := by decide
  exact ⟨_, _, _, _, hload, .head (.edit (.overrideFunction h)) (.head (.edit (.push _ _))
    (.single (.enter rfl 3 1 hdepth)))⟩

/-- The number on the stack is replaced by its successor, whether the instruction calls the function
or the host does. -/
theorem override_honoured_of_sharing :
    ∃ v v', invoke (.nested 1 1) .succ { World.sharing 0 .succ with
          machine := (((World.sharing 0 .succ).machine.goto 6).withStack []).beginCall .succ
            [.int 5] } =
        some (.ok (), v) ∧
      step (.nested 1 1) (World.sharing 0 .succ) = some (.ok false, v') ∧
      v'.machine.stack = [.value (.int 6)] ∧ v' = v.withLog v'.machine.log := by
  have hf : (World.sharing 0 .succ).machine.script.scriptFunction (.index 0) = .ok .succ := rfl
  obtain ⟨-, -, -, hcalls⟩ := override_honoured 1 1 (reachable_sharing rfl) hf
  obtain ⟨hcallback, -⟩ := hcalls ⟨1, .bl, .address 0⟩ rfl rfl rfl rfl
  obtain ⟨m, ht, hs⟩ : ∃ m, takeArguments .succ .succ
      ((World.sharing 0 .succ).machine.fetched ⟨1, .bl, .address 0⟩) = (.ok [.int 5], m) ∧
      m.stack = [] := ⟨_, rfl, rfl⟩
  obtain ⟨-, halike⟩ := (hcallback .succ rfl).arguments _ _ ht (by decide)
  have hrun : ∃ p ∈ step (.nested 1 1) (World.sharing 0 .succ),
      p.1 = .ok false ∧ p.2.machine.stack = [.value (.int 6)] := by decide +kernel
  obtain ⟨⟨_, v'⟩, hv', rfl, hstack⟩ := hrun
  rw [hs, hv'] at halike
  generalize hinvoke : invoke _ _ _ = o at halike
  cases halike with
  | @some p _ h =>
    obtain ⟨_ | _, v⟩ := p
    · cases h.1
    · exact ⟨v, v', hinvoke, hv', hstack, h.2⟩

/-- A callback was accepted in place of the second function, but an instruction that calls its body
enters the body, for the first function. And if it is the first one that is replaced, the same
instruction runs its callback, although there is none in place of the second one. -/
theorem not_override_honoured :
    (∃ w : World Unit, Reachable w.machine ∧
      w.machine.script.scriptFunction (.index 2) = .ok (.body "" 2 0) ∧
      w.machine.hasOverride 2 = true ∧
      w.machine.script.decode w.machine.pc = .ok ⟨1, .bl, .address 0⟩ ∧
      step (.nested 1 1) w = some (.ok false, { w with
        machine := (w.machine.fetched ⟨1, .bl, .address 0⟩).entered (some 0) 0 false })) ∧
    ∃ w w' : World Unit, Reachable w.machine ∧
      w.machine.script.scriptFunction (.index 2) = .ok (.body "" 2 0) ∧
      w.machine.hasOverride 2 = false ∧
      w.machine.script.decode w.machine.pc = .ok ⟨1, .bl, .address 0⟩ ∧
      step (.nested 1 1) w = some (.ok false, w') ∧ w'.machine.frames = w.machine.frames ∧
      w'.machine.stack = [.value (.int 6)] := by
  have hrun : ∃ p ∈ step (.nested 1 1) (World.sharing 0 .succ), p.1 = .ok false ∧
      p.2.machine.frames = (World.sharing 0 .succ).machine.frames ∧
      p.2.machine.stack = [.value (.int 6)] := by decide +kernel
  obtain ⟨⟨_, w'⟩, h, rfl, hw'⟩ := hrun
  exact ⟨⟨.sharing 2 .idle, reachable_sharing rfl, rfl, rfl, rfl, rfl⟩,
    ⟨.sharing 0 .succ, w', reachable_sharing rfl, rfl, rfl, rfl, h, hw'⟩⟩

end RunM

end ScriptMachine
