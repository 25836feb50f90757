import ScriptMachine.Proofs.CallDepth
import ScriptMachine.Proofs.Evaluation
import ScriptMachine.Proofs.Override

/-!
# Arguments of callbacks

The arguments of a callback are popped in reverse, each at its declared kind, and handed over in the
order of their declaration. So a callback that computes its result from them, and leaves the machine
alone, replaces them on the stack by this result, and a call by the host returns it.

* `Routine.computed?` – the result of host code that leaves the machine alone.
* `RunM.dispatch_of_computed` – what a callback with such code does.
* `RunM.call_of_invoke` – what a call returns that leaves a result on the stack.
* `RunM.arguments_in_order` – the arguments that a callback receives, and what becomes of them.
-/

namespace ScriptMachine

variable {σ : Type}

/-! ## Host code that leaves the machine alone -/

/-- The value that host code computes without a request to the machine, and the state that it leaves
the host in. -/
def Routine.computed? : Routine σ → σ → Option (Value × σ)
  | finish (.ok v), host => some (v, host)
  | getHost next, host => (next host).computed? host
  | setHost host next, _ => next.computed? host
  | _, _ => none

/-- Such code does not touch the machine, however it is run. -/
theorem Routine.run_of_computed {b : Budget σ} {x : Routine σ} {v : Value} {host : σ} :
    ∀ {w : World σ}, x.computed? w.host = some (v, host) →
      run b x w = some (.ok v, { w with host }) := by
  induction x with
  | finish outcome =>
    intro w h
    cases outcome with
    | error => cases h
    | ok u =>
      obtain ⟨rfl, rfl⟩ := Prod.mk.inj (Option.some.inj h)
      rfl
  | getHost next ih => exact fun h => ih _ h
  | setHost s next ih => exact @fun w h => ih (w := { w with host := s }) h
  | _ => exact fun h => nomatch h

namespace Machine

variable {m : Machine σ} {f : Symbol} {x : Binding σ} {v : Value}

/-! ## Arguments and results -/

/-- An entry is read as a value of the kind it is popped at. -/
theorem Resolves.kind_eq {k : Kind} {e : Entry} (h : Resolves m k e v) : v.kind = k := by
  obtain ⟨c, a, hk, -, rfl⟩ := h
  rw [CellKind.kind_toValue]
  cases k <;> cases hk <;> rfl

theorem map_kind_of_resolves {ks : List Kind} {es : List (Entry × Value)}
    (h : List.Forall₂ (fun k e => Resolves m k e.1 e.2) ks es) :
    (es.map Prod.snd).map Value.kind = ks := by
  induction h with
  | nil => rfl
  | cons he _ ih => rw [List.map_cons, List.map_cons, he.kind_eq, ih]

/-- A result of the kind that was declared is pushed. -/
theorem giveResult_of_kind (hu : m.poison = none) (hv : v.kind = x.result) :
    giveResult f x v m = (.ok (), m.pushResult v) := by
  rw [giveResult, MachineM.get_bind, MachineM.lift_bind, ensureUsable_of_usable hu, if_pos hv]
  rfl

/-- A result that was pushed is taken again. -/
theorem takeResult_pushResult (f : Symbol) (v : Value) (m : Machine σ) :
    takeResult f v.kind m.stack.length (m.pushResult v) = (.ok v, m) := by
  by_cases hv : v = .void
  · subst hv
    rfl
  · have hkind : v.kind ≠ .void := by cases v <;> simp_all [Value.kind]
    have hpop : popValue v.kind (m.push v) = (.ok v, m) :=
      popValue_of_resolves (resolves_value hkind _) rfl
    have hdepth : ¬(m.push v).stack.length ≤ m.stack.length := by
      simp [push, pushEntry]
    rw [pushResult, if_neg hv, takeResult, if_neg hkind, MachineM.get_bind, if_neg hdepth]
    exact hpop

/-- A callback is bound to a function under its declared signature, and an external function is not
replaced as well. -/
theorem Reachable.bound (hm : Reachable m) (hf : m.script.symbolByIndex? f.index = some f)
    (hx : m.registrations.externals f.index = some x ∨
      m.registrations.overrides f.index = some x) :
    m.script.declaredSignature f = .ok x.signature ∧
      (m.registrations.externals f.index = some x →
        f.isExternal = true ∧ m.hasOverride f.index = false) := by
  obtain ⟨-, hmatches⟩ := hm.matches
  have hfound : ∀ {h}, m.script.symbolByIndex? f.index = some h → h = f :=
    fun hh => Option.some.inj (hh.symm.trans hf)
  constructor
  · rcases hx with hx | hx
    · obtain ⟨h, hh, -, hs⟩ := hmatches.external _ _ hx
      exact hfound hh ▸ hs
    · obtain ⟨h, hh, -, -, hs⟩ := hmatches.override _ _ hx
      exact hfound hh ▸ hs
  · intro hx
    obtain ⟨h, hh, he, -⟩ := hmatches.external _ _ hx
    obtain rfl := hfound hh
    refine ⟨he, Bool.eq_false_iff.2 fun ho => ?_⟩
    obtain ⟨y, hy⟩ := Option.isSome_iff_exists.1 ho
    obtain ⟨h', hh', -, he', -⟩ := hmatches.override _ _ hy
    obtain rfl := hfound hh'
    rw [he] at he'
    cases he'

end Machine

open Machine

namespace RunM

variable {b : Budget σ} {w : World σ} {f : Symbol} {x : Binding σ} {v : Value} {host : σ}

/-! ## Callbacks and calls -/

/-- A callback whose code leaves the machine alone pushes what it computes, and nothing else
happens. -/
theorem dispatch_of_computed {n k : Nat} {args : List Value} {m : Machine σ}
    (ht : takeArguments f x w.machine = (.ok args, m)) (hu : m.poison = none)
    (hc : (x.callback args).computed? w.host = some (v, host)) (hv : v.kind = x.result) :
    dispatch (.nested (n + 1) k) f x w = some (.ok (), ⟨host, m.pushResult v⟩) := by
  have hrun : callback (.nested (n + 1) k) f (x.callback args) { w with machine := m } =
      some (.ok v, ⟨host, m⟩) :=
    callback_eq_some.2 ⟨.ok v, Routine.run_of_computed hc, rfl⟩
  rw [dispatch_of_takeArguments ht, bind_of_ok hrun]
  exact onMachine_of_eq (giveResult_of_kind hu hv)

/-- The external function with a callback is run by it. -/
theorem callExternal_of_external (hf : w.machine.script.symbolByIndex? f.index = some f)
    (he : f.isExternal = true) (hx : w.machine.registrations.externals f.index = some x) :
    callExternal b f.index w = dispatch b f x w := by
  rw [callExternal, machine_bind, lift_bind, Script.find, Script.resolve?, hf]
  dsimp only
  rw [he, hx]
  rfl

/-- The host's call of an external function runs its callback. -/
theorem invoke_of_external (hf : w.machine.script.symbolByIndex? f.index = some f)
    (ho : w.machine.hasOverride f.index = false) (he : f.isExternal = true)
    (hx : w.machine.registrations.externals f.index = some x) :
    invoke b f w = dispatch b f x w := by
  rw [invoke, machine_bind, ho, he]
  exact callExternal_of_external hf he hx

/-- A call takes the result of its function off the stack and returns it. -/
theorem call_of_invoke {key : SymbolKey} {args : List Value} {expected : Option Kind}
    {s : Signature} {m : Machine σ} (ha : Accepts w.machine key args expected f s)
    (hi : invoke b f { w with machine := w.machine.beginCall f args } =
      some (.ok (), ⟨host, m.pushResult v⟩))
    (hm : m.stack = w.machine.stack) (hv : v.kind = s.result) :
    call b key args expected w =
      some (.ok (if expected.isSome then v else .void), ⟨host, m⟩) := by
  have htake : onMachine (takeResult f s.result w.machine.stack.length)
      ⟨host, m.pushResult v⟩ = some (.ok v, ⟨host, m⟩) := by
    rw [← hv, ← hm]
    exact onMachine_of_eq (takeResult_pushResult f v m)
  have hbody : (do invoke b f; onMachine (takeResult f s.result w.machine.stack.length))
      { w with machine := w.machine.beginCall f args } = some (.ok v, ⟨host, m⟩) :=
    (bind_of_ok hi).trans htake
  rw [call, machine_bind, lift_bind, checkCall_of_accepts ha]
  simp only [modifyMachine_bind]
  exact bind_of_ok (andThen_eq_some.2 ⟨_, hbody, rfl⟩)

/-! ## The order of arguments -/

/-- Take a function of a loaded script that is external or replaced, and whose callback computes
`g args` from its arguments and from what the host knows, of the kind that is declared, without a
request to the machine. No parameter is declared void.

Whenever the function is dispatched to with entries on the stack that can be read at the kinds of
its parameters, the last one on top, be they values, literal numbers or references, then the
callback is given what they are read as, in the order of the declaration, and the entries give way
to the result.

Whenever the host calls the function with arguments of these kinds, it gets the result, and the
stack is as it was. Otherwise the machine does not change, but for its log. -/
theorem arguments_in_order {n k : Nat} {s : Signature} {g : List Value → σ → Value × σ}
    (hw : Reachable w.machine) (hu : w.machine.poison = none)
    (hf : w.machine.script.symbolByIndex? f.index = some f)
    (hs : w.machine.script.declaredSignature f = .ok s) (hparams : .void ∉ s.params)
    (hx : w.machine.registrations.externals f.index = some x ∨
      w.machine.registrations.overrides f.index = some x)
    (hg : ∀ args host, args.map Value.kind = s.params →
      (x.callback args).computed? host = some (g args host) ∧ (g args host).1.kind = s.result) :
    (∀ es below, List.Forall₂ (fun k e => Resolves w.machine k e.1 e.2) s.params es →
      w.machine.stack = (es.map Prod.fst).reverse ++ below →
      let args := es.map Prod.snd
      let m := w.machine.report (.dispatched f.name args)
      let (v, host) := g args w.host
      let w' : World σ := ⟨host, m.withStack (if v = .void then below else .value v :: below)⟩
      takeArguments f x w.machine = (.ok args, m.withStack below) ∧
        (w.machine.registrations.externals f.index = some x →
          callExternal (.nested (n + 1) k) f.index w = some (.ok (), w')) ∧
        (w.machine.registrations.overrides f.index = some x →
          callOverride (.nested (n + 1) k) f.index w = some (.ok (), w'))) ∧
    ∀ key expected args, w.machine.script.resolve? key = some f → f.isCallable = true →
      args.map Value.kind = s.params → (∀ kind, expected = some kind → kind = s.result) →
      let (v, host) := g args w.host
      call (.nested (n + 1) k) key args expected w =
        some (.ok (if expected.isSome then v else .void),
          ⟨host, (w.machine.report (.called f.name)).report (.dispatched f.name args)⟩) := by
  obtain ⟨hsignature, hexternal⟩ := hw.bound hf hx
  obtain rfl : x.signature = s := Except.ok.inj (hsignature.symm.trans hs)
  constructor
  · intro es below hes hstack args m
    have hkinds : args.map Value.kind = x.params := map_kind_of_resolves hes
    obtain ⟨hc, hv⟩ := hg args w.host hkinds
    have htake : takeArguments f x w.machine = (.ok args, m.withStack below) :=
      takeArguments_of_resolves hes hstack
    have hrun := dispatch_of_computed (n := n) (k := k) (w := w) htake hu hc hv
    have hpush : (m.withStack below).pushResult (g args w.host).1 =
        m.withStack (if (g args w.host).1 = .void then below else
          .value (g args w.host).1 :: below) := by
      rw [pushResult]
      split <;> rfl
    rw [hpush] at hrun
    refine ⟨htake, fun h => ?_, fun h => ?_⟩
    · exact (callExternal_of_external hf (hexternal h).1 h).trans hrun
    · exact (callOverride_of_override hf h).trans hrun
  · intro key expected args hkey hcallable hkinds hexpected
    obtain ⟨hc, hv⟩ := hg args w.host hkinds
    have haccepts : Accepts w.machine key args expected f x.signature :=
      ⟨hu, hkey, hcallable, hs, hkinds, hexpected⟩
    -- the call puts the arguments on the stack, where they are popped again as they are
    let w₀ : World σ := { w with machine := w.machine.beginCall f args }
    have htake := takeArguments_of_beginCall (f := f) hkinds hparams w.machine
    have hrun := dispatch_of_computed (n := n) (k := k) (w := w₀) htake hu hc hv
    have hbegin : w₀.machine = (w.machine.report (.called f.name)).withStack
        ((args.map .value).reverse ++ w.machine.stack) := beginCall_eq w.machine f args
    have hfound : w₀.machine.script.symbolByIndex? f.index = some f := by rw [hbegin]; exact hf
    have hinvoke : invoke (.nested (n + 1) k) f w₀ =
        dispatch (.nested (n + 1) k) f x w₀ := by
      rcases hx with hx | hx
      · obtain ⟨he, ho⟩ := hexternal hx
        exact invoke_of_external hfound (by rw [hbegin]; exact ho) he (by rw [hbegin]; exact hx)
      · exact invoke_of_override hfound (by rw [hbegin]; exact hx)
    exact call_of_invoke haccepts (hinvoke.trans hrun) rfl hv

/-- An external function with two parameters. -/
def differenceSymbol : Symbol :=
  { Symbol.blank "" 0 .func none with flags := ⟨0x0B⟩, count := 2, extra := DataType.int.code }

/-- A script with this function of a number and a floating-point number, and with a number. -/
def difference : Script :=
  .ofParts 50
    [differenceSymbol,
      { Symbol.blank "" 1 .int none with count := 0, data := .ints [] },
      { Symbol.blank "" 2 .float none with count := 0, data := .floats [] },
      { Symbol.blank "" 3 .int none with flags := .const, data := .ints [7] }]
    #[]

/-- The script as it is compiled. -/
def differenceBytes : List UInt8 :=
  50 :: [4, 0, 0, 0, 0, 0, 2, 0xB5002, 0, 0, 0, 0, 0, 0, 0xFFFFFFFF,
    0, 0, 0x2000, 0, 0, 0, 0, 0, 0xFFFFFFFF, 0, 0, 0x1000, 0, 0, 0, 0, 0, 0xFFFFFFFF,
    0, 0, 0x12001, 0, 0, 0, 0, 0, 7, 0xFFFFFFFF, 0].flatMap LittleEndian.encode

set_option maxRecDepth 1000 in
theorem load_differenceBytes : Script.load .windows1252 differenceBytes = .ok difference := rfl

/-- The first number without the bits of the second one. -/
def differenceOf : List Value → Value
  | [.int n, .float y] => .int (n - y.bits.toInt32)
  | _ => .int 0

/-- A callback that takes this difference, and keeps its arguments for the host. -/
def differenceBinding : Binding (List Value) :=
  ⟨fun args => .setHost args (.finish (.ok (differenceOf args))), [.int, .float], .int⟩

/-- A machine with this callback and with some entries on its stack. -/
def differenceWorld (stack : List Entry) : World (List Value) :=
  ⟨[], { Machine.new difference .default with
    stack, registrations.externals := Bindings.empty.insert 0 differenceBinding }⟩

/-- A reference to a number and a literal number, which serves as a floating-point number, arrive in
their order, and so do two arguments of the host. -/
theorem arguments_in_order_of_difference :
    callExternal (.nested 1 1) 0
        (differenceWorld [.immediate 2, .reference ⟨3, 0, none⟩, .immediate 9]) =
      some (.ok (), ⟨[.int 7, .float ⟨2⟩], ((differenceWorld []).machine.report
        (.dispatched "" [.int 7, .float ⟨2⟩])).withStack [.value (.int 5), .immediate 9]⟩) ∧
    ∃ w', call (.nested 1 1) (.index 0) [.int 1, .float ⟨4⟩] (some .int)
        (differenceWorld [.immediate 2, .reference ⟨3, 0, none⟩, .immediate 9]) =
      some (.ok (.int (-3)), w') ∧
        w'.machine.stack = [.immediate 2, .reference ⟨3, 0, none⟩, .immediate 9] := by
  let w := differenceWorld [.immediate 2, .reference ⟨3, 0, none⟩, .immediate 9]
  have hregister : (Machine.new difference Config.default).registerExternal (.index 0)
      differenceBinding = .ok (differenceWorld []).machine := rfl
  have hbound : Evolves (new difference .default) (differenceWorld []).machine :=
    .single (.edit (.registerExternal hregister))
  have hreach : Reachable w.machine :=
    ⟨_, _, _, _, load_differenceBytes, .tail (.tail (.tail hbound (.edit (.push _ (.immediate 9))))
      (.edit (.push _ (.reference ⟨3, 0, none⟩)))) (.edit (.push _ (.immediate 2)))⟩
  have hg : ∀ args host, args.map Value.kind = [.int, .float] →
      (differenceBinding.callback args).computed? host = some (differenceOf args, args) ∧
        (differenceOf args).kind = .int := by
    intro args host _
    refine ⟨rfl, ?_⟩
    unfold differenceOf
    split <;> rfl
  have horder := arguments_in_order (n := 0) (k := 1) (w := w) (f := differenceSymbol)
    (x := differenceBinding) (s := ⟨[.int, .float], .int⟩)
    (g := fun args _ => (differenceOf args, args)) hreach rfl rfl rfl (by decide) (.inl rfl) hg
  have hseven : w.machine.intVariable? 3 = some 7 := by decide +kernel
  have hes : List.Forall₂ (fun k (e : Entry × Value) => Resolves w.machine k e.1 e.2)
      [.int, .float] [(.reference ⟨3, 0, none⟩, .int 7), (.immediate 2, .float ⟨2⟩)] :=
    .cons ⟨.int, 7, rfl, content?_of_intVariable hseven none, rfl⟩
      (.cons ⟨.float, ⟨2⟩, rfl, rfl, rfl⟩ .nil)
  obtain ⟨-, hdispatch, -⟩ := horder.1 _ [.immediate 9] hes rfl
  have hcall := horder.2 (.index 0) (some .int) [.int 1, .float ⟨4⟩] rfl rfl rfl (by simp)
  exact ⟨hdispatch rfl, _, hcall, rfl⟩

end RunM

end ScriptMachine
