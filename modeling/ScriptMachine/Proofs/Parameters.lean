import ScriptMachine.Proofs.Arity
import ScriptMachine.Proofs.CallDepth
import ScriptMachine.Proofs.Declared
import ScriptMachine.Proofs.Override
import ScriptMachine.Proofs.Prologue

/-!
# Arguments in parameters

A call by the host puts the arguments on the stack in order, and the function that it enters begins
with moves that take them off in reverse, each into a parameter. Whatever happened to the machine
before, the parameters have room for them, and so each argument arrives in the parameter in its
position.

* `RunM.finishCall`, `RunM.call_eq_finishCall` – a call once the body of the function is entered.
* `Draft.openFunction` – a function whose body is still to be assembled.
* `Script.Begins.advances` – the prologue of a function that was loaded.
* `RunM.arguments_of_call` – what the prologue does for a call.
-/

namespace ScriptMachine

open Assembler

/-! ## Calls that enter a body -/

/-- A call that begins puts its arguments on the stack and reports itself. -/
theorem Machine.beginCall_fields {σ : Type} (m : Machine σ) (f : Symbol) (args : List Value) :
    (m.beginCall f args).script = m.script ∧
      (m.beginCall f args).stack = (args.map Entry.value).reverse ++ m.stack ∧
        (m.beginCall f args).memory = m.memory := by
  rw [beginCall_eq]
  exact ⟨rfl, rfl, rfl⟩

namespace RunM

variable {σ : Type} {b : Budget σ} {w : World σ}

/-- What is left of a call by the host once the body of the function is entered: the body is left or
fails, the result is taken, and an error makes the machine unusable. -/
def finishCall (b : Budget σ) (f : Symbol) (kind : Kind) (expected : Option Kind)
    (caller : Machine σ) : RunM σ Value := do
  let v ← onError
    (do
      onError (loop b) fun e m => (m.poisonWith e).unwind caller.frames.length
      onMachine (Machine.takeResult f kind caller.stack.length))
    fun e m => m.poisonWith e
  return if expected.isSome then v else .void

/-- A call that passes the checks enters the body of the function, if not too many are active. -/
theorem call_eq_finishCall {key : SymbolKey} {args : List Value} {expected : Option Kind}
    {f : Symbol} {s : Signature} (ha : Machine.Accepts w.machine key args expected f s)
    (ho : w.machine.hasOverride f.index = false) (he : f.isExternal = false)
    (hd : w.machine.frames.length < w.machine.config.maxCallDepth) :
    call b key args expected w = finishCall b f s.result expected w.machine
      { w with machine := (w.machine.beginCall f args).entered (some f.index) f.address true } := by
  have hbegin := Machine.beginCall_eq w.machine f args
  have hinvoke : invoke b f { w with machine := w.machine.beginCall f args } =
      onError (loop b) (fun e m => (m.poisonWith e).unwind w.machine.frames.length)
        { w with
          machine := (w.machine.beginCall f args).entered (some f.index) f.address true } := by
    rw [invoke_of_not_override (by rw [hbegin]; exact ho) he,
      runFunction_eq_onError (by rw [hbegin]; exact hd), hbegin]
    rfl
  rw [call, machine_bind, lift_bind, checkCall_of_accepts ha]
  simp only [modifyMachine_bind]
  rw [finishCall]
  refine bind_congr_left ?_
  rw [onError, onError, andThen, andThen, bind_congr_left hinvoke]

end RunM

open Machine

variable {σ : Type} {b : Budget σ} {w : World σ}

/-! ## Moves into parameters -/

/-- Arguments that suit the types of parameters are contents of cells for them. -/
theorem Assembler.exists_given {params : List DataType} {args : List Value}
    (hparams : ∀ t ∈ params, t ∈ [DataType.int, .func, .float, .string, .inst])
    (hargs : List.Forall₂ (fun t v => t.kind? = some v.kind) params args) :
    ∃ given : List (DataType × CellValue), params = given.map Prod.fst ∧
      args = (given.map fun g => g.2.1.toValue g.2.2) ∧
        ∀ g ∈ given, g.1.kind? = some g.2.1.kind := by
  induction hargs with
  | nil => exact ⟨[], rfl, rfl, nofun⟩
  | @cons t v params args hv _ ih =>
    obtain ⟨ht, hparams⟩ := List.forall_mem_cons.1 hparams
    obtain ⟨given, rfl, rfl, hgiven⟩ := ih hparams
    obtain ⟨c, rfl⟩ : ∃ c : CellValue, v = c.1.toValue c.2 := by
      cases v with
      | int n => exact ⟨⟨.int, n⟩, rfl⟩
      | float x => exact ⟨⟨.float, x⟩, rfl⟩
      | string s => exact ⟨⟨.string, s⟩, rfl⟩
      | inst x => exact ⟨⟨.inst, x⟩, rfl⟩
      | void =>
        obtain rfl := DataType.kind?_eq_void.1 hv
        exact absurd ht (by decide)
    rw [CellKind.kind_toValue] at hv
    exact ⟨(t, c) :: given, rfl, rfl, List.forall_mem_cons.2 ⟨hv, hgiven⟩⟩

namespace Script.Begins

variable {p : Script} {d : Draft} {name : String} {params : List DataType}
  {result : Option DataType} {body : List BodyItem}
  (h : p.Begins (d.declare (.function name params result body)))
  (hsymbols : p.symbols.size ≤ UInt32.size)

include h hsymbols

/-- Moves of arguments go to parameters, and each of them fits, whatever happened to a machine. -/
theorem fits_of_mem_moves {enc : Text.Encoding} {bytes : List UInt8} {c : Config}
    {given : List (DataType × CellValue)} (hload : Script.load enc bytes = .ok p)
    (hparams : params = given.map Prod.fst) (hgiven : ∀ g ∈ given, g.1.kind? = some g.2.1.kind)
    {m : Machine σ} (hm : Evolves (new p c) m) :
    ∀ x ∈ moves (d.nextIndex + 1) given, x.Fits p m.memory := by
  intro x hx
  obtain ⟨i, g, hi, rfl⟩ := mem_moves.1 hx
  have hparam : params[i]? = some g.1 := by rw [hparams, List.getElem?_map, hi]; rfl
  obtain ⟨hlt, -⟩ := List.getElem?_eq_some_iff.1 hparam
  have hkind := hgiven g (List.mem_of_getElem? hi)
  -- a parameter is no slot, so the machine itself has left its storage as it was created
  have hfound : p.symbolByIndex? (d.nextIndex + 1 + UInt32.ofNat i) =
      some (declaredParameter name (d.symbols.size + 1 + i) i g.1).loaded := by
    rw [symbolByIndex?, h.toNat_parameter hsymbols hlt]
    exact h.parameter hparam
  have hown := own_of_dot hload hsymbols hfound dot_mem_declaredParameter (by
    rw [Symbol.isInstanceDefinition, flags_declaredParameter.1]
    simp)
  refine ⟨⟨_, hfound, flags_declaredParameter⟩, hkind, ?_⟩
  rw [← shape_declaredParameter hkind]
  exact hm.shape_own hload hown

/-- The targets of the moves all differ. -/
theorem nodup_target_moves {given : List (DataType × CellValue)}
    (hparams : params = given.map Prod.fst) :
    ((moves (d.nextIndex + 1) given).map Move.target).Nodup := by
  rw [target_moves, List.nodup_reverse]
  refine List.Nodup.map_on (fun i hi j hj hij => ?_) List.nodup_range
  have hlength : params.length = given.length := by rw [hparams, List.length_map]
  have hi := h.toNat_parameter hsymbols (hlength ▸ List.mem_range.1 hi)
  have hj := h.toNat_parameter hsymbols (hlength ▸ List.mem_range.1 hj)
  rw [hij] at hi
  omega

end Script.Begins

/-! ## Prologues of loaded functions -/

/-- The body of a function as it is opened: behind the symbols of the function, and with its
prologue in place. -/
def Assembler.Draft.openFunction (d : Draft) (name : String) (params : List DataType)
    (result : Option DataType) : OpenBody :=
  (prologue params (d.nextIndex + 1)).foldl OpenBody.step
    ((d.add (functionSymbol name params result d.here)).addAll
      (parameterSymbols name params)).openBody

/-- A function is declared by adding the items of its body to what is opened for it. -/
theorem Assembler.Draft.declare_function (d : Draft) (name : String) (params : List DataType)
    (result : Option DataType) (body : List BodyItem) :
    d.declare (.function name params result body) =
      (body.foldl OpenBody.step (d.openFunction name params result)).draft := by
  rw [openFunction, ← List.foldl_append]
  rfl

namespace Script.Begins

variable {p : Script} {d : Draft} {name : String} {result : Option DataType}
  {body : List BodyItem} {given : List (DataType × CellValue)}
  (h : p.Begins (d.declare (.function name (given.map Prod.fst) result body)))

include h

/-- Moves into the parameters stand where the function begins, and its body behind them. -/
theorem at_moves (hsize : p.code.size < UInt32.size) :
    let code := Instruction.bytes ((moves (d.nextIndex + 1) given).flatMap Move.code)
    p.code.At d.here code ∧
      (d.openFunction name (given.map Prod.fst) result).draft.here =
        d.here + UInt32.ofNat code.length := by
  intro code
  let d' := (d.add (functionSymbol name (given.map Prod.fst) result d.here)).addAll
    (parameterSymbols name (given.map Prod.fst))
  have hcode : d'.code = d.code := Draft.code_addAll _ _
  have hshape : ∀ i ∈ (moves (d.nextIndex + 1) given).flatMap Move.code,
      i.2.shape = i.1.shape := List.forall_mem_flatMap.2 fun x _ => x.shape_code
  have hitems := prologue_eq (d.nextIndex + 1) given
  constructor
  · have hpre := Draft.prefix_addBody hshape d' body
    rw [← hitems, hcode] at hpre
    exact Draft.at_here hsize (hpre.trans h.code)
  · have hopen := OpenBody.code_emits hshape d'.openBody
    rw [← hitems] at hopen
    have hlength := congrArg List.length hopen
    simp only [List.length_append, Array.length_toList] at hlength
    rw [Draft.here, Draft.openFunction, hlength, UInt32.ofNat_add]
    exact congrArg (fun c : Code => UInt32.ofNat c.size + _) hcode

/-- A machine that has come to a function with the arguments on its stack moves them into the
parameters, and comes to the body of the function. -/
theorem advances {below : List Entry} (hscript : w.machine.script = p)
    (hsize : p.code.size < UInt32.size) (hpc : w.machine.pc = d.here)
    (hfits : ∀ x ∈ moves (d.nextIndex + 1) given, x.Fits p w.machine.memory)
    (hs : w.machine.stack =
      ((given.map fun g => g.2.1.toValue g.2.2).map Entry.value).reverse ++ below) :
    ∃ log, Advances b (2 * given.length) w ⟨w.host, w.machine.stored below
      (w.machine.memory.assignAll (moves (d.nextIndex + 1) given))
      (d.openFunction name (given.map Prod.fst) result).draft.here log⟩ := by
  obtain ⟨hat, hhere⟩ := h.at_moves hsize
  subst hscript
  rw [← entry_moves (d.nextIndex + 1)] at hs
  obtain ⟨log, hadvances⟩ := Move.advances_all (b := b) hsize (hpc ▸ hat) hfits hs
  rw [length_moves, hpc, ← hhere] at hadvances
  exact ⟨log, hadvances⟩

variable (hlength : given.length ≤ 4095) (hsymbols : p.symbols.size ≤ UInt32.size)

include hlength hsymbols

/-- Each parameter is the target of the move in its position. -/
theorem index_parameter {i : Nat} {s : Symbol}
    (hs : (p.parametersOf (d.declaredFunction name (given.map Prod.fst) result))[i]? = some s) :
    i < given.length ∧ s.index.toNat = (d.nextIndex + 1 + UInt32.ofNat i).toNat := by
  rw [h.getElem?_parametersOf (by simpa using hlength) hsymbols] at hs
  obtain ⟨type, htype, rfl⟩ := Option.map_eq_some_iff.1 hs
  obtain ⟨hi, -⟩ := List.getElem?_eq_some_iff.1 htype
  refine ⟨by simpa using hi, ?_⟩
  have hlt := h.size_add_lt hi
  rw [h.toNat_parameter hsymbols hi]
  exact UInt32.toNat_ofNat_of_lt' (Nat.lt_of_lt_of_le (by omega) hsymbols)

/-- What was moved into each parameter is the argument in its position. -/
theorem getElem?_assignAll_parameter {m : Memory}
    (hfits : ∀ x ∈ moves (d.nextIndex + 1) given, x.Fits p m) {i : Nat} {s : Symbol} {v : Value}
    (hs : (p.parametersOf (d.declaredFunction name (given.map Prod.fst) result))[i]? = some s)
    (hv : (given.map fun g => g.2.1.toValue g.2.2)[i]? = some v) :
    ∃ cell, v.cell? = some cell ∧
      (m.assignAll (moves (d.nextIndex + 1) given)).globals[s.index.toNat]? =
        some (.ofCells cell.1 #[cell.2]) := by
  obtain ⟨hi, hindex⟩ := h.index_parameter hlength hsymbols hs
  rw [List.getElem?_map, List.getElem?_eq_getElem hi] at hv
  obtain rfl := Option.some.inj hv
  have hx : ⟨d.nextIndex + 1 + UInt32.ofNat i, given[i].1, given[i].2⟩ ∈
      moves (d.nextIndex + 1) given := mem_moves.2 ⟨i, _, List.getElem?_eq_getElem hi, rfl⟩
  obtain ⟨st, hst, -⟩ := Option.map_eq_some_iff.1 (hfits _ hx).shape
  obtain ⟨hlt, -⟩ := Array.getElem?_eq_some_iff.1 hst
  refine ⟨given[i].2, Value.cell?_toValue _ _, ?_⟩
  rw [hindex]
  exact Memory.getElem?_assignAll hx (h.nodup_target_moves hsymbols rfl) m hlt

/-- What is no parameter stays as it was. -/
theorem getElem?_assignAll_of_not_parameter (m : Memory) {i : Nat}
    (hi : ∀ s ∈ p.parametersOf (d.declaredFunction name (given.map Prod.fst) result),
      s.index.toNat ≠ i) :
    (m.assignAll (moves (d.nextIndex + 1) given)).globals[i]? = m.globals[i]? := by
  refine Memory.getElem?_assignAll_of_ne (fun x hx => ?_) m
  obtain ⟨j, g, hj, rfl⟩ := mem_moves.1 hx
  have hparam := h.getElem?_parametersOf (by simpa using hlength) hsymbols j
  rw [List.getElem?_map, hj] at hparam
  obtain ⟨-, hindex⟩ := h.index_parameter hlength hsymbols hparam
  rw [← hindex]
  exact hi _ (List.mem_of_getElem? hparam)

end Script.Begins

/-! ## What arrives -/

namespace RunM

/-- Take any loaded script whose symbols can be numbered by words and that begins with what is
assembled up to a function with at most 4095 parameters, which are numbers, functions,
floating-point numbers, texts and instances, and a usable machine that runs it and may enter one
more body, whatever happened to it before. A call of the function, if it is not replaced, with
arguments of the kinds of its parameters enters its body. The first two instructions for each
parameter take the arguments off the stack again, which is then as it was before the call, and lead
to where the items of the body begin. Each parameter holds the argument in its position,
floating-point numbers with all their bits, and no other variable has changed. -/
theorem arguments_of_call {enc : Text.Encoding} {bytes : List UInt8} {p : Script} {c : Config}
    {d : Draft} {name : String} {params : List DataType} {result : Option DataType}
    {body : List BodyItem} {key : SymbolKey} {args : List Value}
    (hload : Script.load enc bytes = .ok p) (hsymbols : p.symbols.size ≤ UInt32.size)
    (hfunction : p.Begins (d.declare (.function name params result body)))
    (hparams : ∀ t ∈ params, t ∈ [DataType.int, .func, .float, .string, .inst])
    (hlength : params.length ≤ 4095)
    (hw : Evolves (new p c) w.machine) (hu : w.machine.poison = none)
    (hd : w.machine.frames.length < w.machine.config.maxCallDepth)
    (hkey : p.resolve? key = p.symbolByIndex? d.nextIndex)
    (ho : w.machine.hasOverride d.nextIndex = false)
    (hargs : List.Forall₂ (fun t v => t.kind? = some v.kind) params args) :
    d.declare (.function name params result body) =
        (body.foldl OpenBody.step (d.openFunction name params result)).draft ∧
      ∃ f memory log, p.resolve? key = some f ∧ (p.parametersOf f).length = args.length ∧
      let entered := (w.machine.beginCall f args).entered (some f.index) f.address true
      let begun := entered.stored w.machine.stack memory
        (d.openFunction name params result).draft.here log
      (∀ kind expected, Script.resultKind f = .ok kind → (∀ k, expected = some k → k = kind) →
        call b key args expected w =
          finishCall b f kind expected w.machine { w with machine := entered }) ∧
      Advances b (2 * params.length) { w with machine := entered } { w with machine := begun } ∧
      (∀ (i : Nat) s v, (p.parametersOf f)[i]? = some s → args[i]? = some v →
        ∃ cell, v.cell? = some cell ∧
          memory.globals[s.index.toNat]? = some (.ofCells cell.1 #[cell.2])) ∧
      (∀ i, (∀ s ∈ p.parametersOf f, s.index.toNat ≠ i) →
        memory.globals[i]? = w.machine.memory.globals[i]?) ∧
      memory.instances = w.machine.memory.instances := by
  obtain ⟨given, rfl, rfl, hgiven⟩ := exists_given hparams hargs
  rw [List.length_map] at hlength
  have hscript : w.machine.script = p := hw.script_eq
  let f := d.declaredFunction name (given.map Prod.fst) result
  let args := given.map fun g => g.2.1.toValue g.2.2
  have hf : p.resolve? key = some f := hkey.trans (hfunction.symbolByIndex?_function hsymbols)
  have hkinds : (p.parametersOf f).map Symbol.kind? = (args.map Value.kind).map some := by
    rw [hfunction.kinds_parametersOf (by simpa using hlength) hsymbols]
    simpa [args] using fun t c hc => hgiven (t, c) hc
  have hfits := hfunction.fits_of_mem_moves hsymbols hload rfl hgiven hw
  -- the body is entered with the arguments on top of what was on the stack
  let entered := (w.machine.beginCall f args).entered (some f.index) f.address true
  obtain ⟨hcode, hstack, hmemory⟩ : entered.script = w.machine.script ∧
      entered.stack = (args.map Entry.value).reverse ++ w.machine.stack ∧
        entered.memory = w.machine.memory := w.machine.beginCall_fields f args
  have hadvances := hfunction.advances (b := b) (w := { w with machine := entered })
    (hcode.trans hscript) (Script.size_code_of_load hload) rfl (hmemory ▸ hfits) hstack
  obtain ⟨log, hadvances⟩ := hadvances
  refine ⟨d.declare_function _ _ _ _, f, w.machine.memory.assignAll (moves (d.nextIndex + 1) given),
    log, hf, ?_, ?_, ?_, ?_, ?_, Memory.instances_assignAll _ _⟩
  · simpa [args] using congrArg List.length hkinds
  · intro kind expected hkind hexpected
    have hflags : f.isConst = true ∧ f.isExternal = false := Draft.flags_declaredFunction
    have hdeclared := Script.declaredSignature_of_kinds hkinds hkind
    have haccepts : Accepts w.machine key args expected f ⟨args.map Value.kind, kind⟩ :=
      ⟨hu, hscript ▸ hf, hflags.1, hscript ▸ hdeclared, rfl, hexpected⟩
    exact call_eq_finishCall haccepts ho hflags.2 hd
  · rw [List.length_map, ← hmemory]
    exact hadvances
  · intro i s v hs hv
    exact hfunction.getElem?_assignAll_parameter hlength hsymbols hfits hs hv
  · intro i hi
    exact hfunction.getElem?_assignAll_of_not_parameter hlength hsymbols _ hi

/-- A number, a function with a parameter of each type, and a function behind it. -/
def mixed : List Declaration := [
  .var "Total" .int 1,
  .function "Mixed" [.int, .float, .string, .inst, .func] none [.pushInt 1, .finish],
  .function "Other" [] none [.finish]]

/-- The script they are loaded as. -/
def mixedScript : Script :=
  .ofParts Draft.version ((assemble mixed).symbols.toList.map Symbol.loaded) (assemble mixed).code

theorem load_mixed :
    Script.load .windows1252 ((assemble mixed).bytes .windows1252) = .ok mixedScript := by
  have hwell : (assemble mixed).WellFormed := wellFormed_assemble (by decide)
  have hp : ∀ s ∈ (assemble mixed).symbols, s.parent.all (· < 0x80000000) = true := by
    decide +kernel
  have ht : ∀ s ∈ (assemble mixed).symbols, ∀ t ∈ s.texts,
      Text.Encoding.windows1252.Carries t := by decide +kernel
  exact hwell.load_bytes
    (fun s hs i hi => of_decide_eq_true ((Option.all_eq_true _ _).1 (hp s hs) i hi)) ht
    (by decide +kernel) (by decide +kernel)

/-- A floating-point argument that is no number arrives with all its bits, and the entry that was on
the stack stays. -/
theorem arguments_of_call_of_mixed :
    ∃ entered v : World Unit, Advances ⟨Routine.runWithin 1, 12⟩ 10 entered v ∧
      entered.machine.stack.length = 6 ∧ v.machine.stack = [.immediate 5] ∧
      v.machine.memory.globals[3]? = some (.floats #[⟨0x7FC00001⟩]) ∧
      v.machine.memory.globals[0]? = some (.ints #[0]) := by
  let m : Machine Unit := new mixedScript .default
  have hpush : Evolves m (m.pushEntry (.immediate 5)) := .single (.edit (.push m _))
  let args : List Value := [.int 3, .float ⟨0x7FC00001⟩, .string "hi", .inst none, .int 0]
  have hargs : List.Forall₂ (fun t v => t.kind? = some v.kind)
      [DataType.int, .float, .string, .inst, .func] args :=
    .cons rfl (.cons rfl (.cons rfl (.cons rfl (.cons rfl .nil))))
  have hbegins : mixedScript.Begins (assemble (mixed.take 2)) :=
    (Script.begins_ofParts _ (assemble mixed)).of_extends (.assemble (mixed.take 2) _)
  have hkey : mixedScript.resolve? (.index 1) =
      mixedScript.symbolByIndex? (assemble [.var "Total" .int 1]).nextIndex := rfl
  obtain ⟨-, f, memory, log, hf, -, -, hadvances, hparam, hother, -⟩ :=
    arguments_of_call (b := ⟨Routine.runWithin 1, 12⟩) (w := ⟨(), m.pushEntry (.immediate 5)⟩)
      load_mixed (by decide +kernel) hbegins (by decide) (by decide) hpush rfl
      (by decide) hkey rfl hargs
  have hindices : (mixedScript.parametersOf f).map (·.index.toNat) = [2, 3, 4, 5, 6] := by
    have h : (mixedScript.resolve? (.index 1)).map (fun f =>
        (mixedScript.parametersOf f).map (·.index.toNat)) = some [2, 3, 4, 5, 6] := by
      decide +kernel
    rw [hf] at h
    exact Option.some.inj h
  refine ⟨_, _, hadvances, rfl, rfl, ?_, ?_⟩
  · have hsecond := congrArg (·[1]?) hindices
    simp only [List.getElem?_map] at hsecond
    obtain ⟨s, hs, hindex⟩ := Option.map_eq_some_iff.1 hsecond
    obtain ⟨cell, hcell, hglobal⟩ := hparam 1 s _ hs rfl
    obtain rfl := Option.some.inj hcell
    rw [hindex] at hglobal
    exact hglobal
  · refine (hother 0 fun s hs => ?_).trans (by decide +kernel)
    have hmem := List.mem_map_of_mem (f := (·.index.toNat)) hs
    rw [hindices] at hmem
    rintro h
    rw [h] at hmem
    exact absurd hmem (by decide)

end RunM

end ScriptMachine
