import ScriptMachine.Host.Typed
import ScriptMachine.Proofs.Conversion
import ScriptMachine.Proofs.Override

/-!
# Registration

A callback is bound to a function in one of two roles: as the code of a function that the host
provides, or in place of a script function. In either role a function is given a callback only if it
is of the right sort and the callback has its declared signature; otherwise nothing happens. A typed
callback has the signature of its types, so that of the arguments it is given nothing but null can
have the wrong type.

* `Role` – what a callback can be bound as.
* `Role.Admits` – whether a callback can be bound to a function.
* `Role.admits_of_register`, `Role.exists_register` – callbacks are bound exactly if they can be.
* `Binding.typed` – what a typed callback is bound as.
* `Binding.callback_typed` – when a typed callback fails to take its arguments.
* `registrations_match` – callbacks match the script at every moment of a run.
-/

namespace ScriptMachine

open Machine

variable {σ : Type}

/-- What a callback can be bound as: the code of a function that the host provides, or a replacement
for a script function. -/
inductive Role where
  | external
  | override
  deriving DecidableEq

theorem Symbol.isCallable_iff {f : Symbol} :
    f.isCallable = true ↔ f.type = .func ∧ f.isConst = true := by
  rw [Symbol.isCallable, Bool.and_eq_true, beq_iff_eq]

namespace Role

/-- The callbacks that are bound in a role. -/
def bindings (r : Registrations σ) : Role → Bindings σ
  | external => r.externals
  | override => r.overrides

/-- The functions that can be given a callback in a role. -/
def Serves : Role → Symbol → Prop
  | external, f => f.isExternal = true
  | override, f => f.type = .func ∧ f.isConst = true ∧ f.isExternal = false

/-- The function that a key stands for, if it can be given a callback in a role. -/
def function (p : Script) (key : SymbolKey) : Role → Except Error Symbol
  | external => p.externalFunction key
  | override => p.scriptFunction key

/-- Binds a callback in a role. -/
def register (m : Machine σ) (key : SymbolKey) (y : Binding σ) :
    Role → Except Error (Machine σ)
  | external => m.registerExternal key y
  | override => m.overrideFunction key y

/-- The request of host code to bind a callback in a role. -/
def request (key : SymbolKey) (y : Binding σ) (next : Except Error Unit → Routine σ) :
    Role → Routine σ
  | external => .registerExternal key y.params y.result y.callback next
  | override => .overrideFunction key y.params y.result y.callback next

/-- Whether a callback can be bound to the function `f` in a role: the key stands for this function,
which serves the role, and the callback has the signature that the script declares for it. -/
structure Admits (role : Role) (p : Script) (key : SymbolKey) (y : Binding σ) (f : Symbol) :
    Prop where
  found : p.find key = .ok f
  serves : role.Serves f
  declared : p.declaredSignature f = .ok y.signature

variable {role : Role} {p : Script} {m m' : Machine σ} {w : World σ} {key : SymbolKey}
  {y : Binding σ} {f : Symbol} {i : UInt32}

/-! ## Callbacks that are bound -/

theorem function_eq_ok_iff :
    role.function p key = .ok f ↔ p.find key = .ok f ∧ role.Serves f := by
  cases role with
  | external =>
    constructor
    · exact Script.externalFunction_eq_ok
    · rintro ⟨hf, he⟩
      rw [function, Script.externalFunction, Except.bind_of_ok hf]
      exact if_pos he
  | override =>
    constructor
    · intro h
      obtain ⟨hf, hc, he⟩ := Script.scriptFunction_eq_ok h
      obtain ⟨ht, hc⟩ := Symbol.isCallable_iff.1 hc
      exact ⟨hf, ht, hc, he⟩
    · rintro ⟨hf, ht, hc, he⟩
      have hcallable : f.isCallable = true := Symbol.isCallable_iff.2 ⟨ht, hc⟩
      rw [function, Script.scriptFunction, Except.bind_of_ok hf, hcallable, he]
      rfl

/-- A callback that is accepted can be bound to a function. It replaces the one that was bound to
the same function in the same role, and no other. -/
theorem admits_of_register (h : role.register m key y = .ok m') :
    ∃ f, role.Admits m.script key y f ∧ ∀ role' i, role'.bindings m'.registrations i =
      if role' = role ∧ i = f.index then some y else role'.bindings m.registrations i := by
  have hadmits {f : Symbol} (hf : role.function m.script key = .ok f)
      (hs : m.script.checkSignature f y.signature = .ok ()) : role.Admits m.script key y f := by
    obtain ⟨hf, hserves⟩ := function_eq_ok_iff.1 hf
    exact ⟨hf, hserves, Script.checkSignature_eq_ok hs⟩
  cases role with
  | external =>
    obtain ⟨f, hf, hs, log, rfl, -⟩ := registerExternal_eq_ok h
    refine ⟨f, hadmits hf hs, fun role' i => ?_⟩
    cases role' <;> simp [bindings, Bindings.insert]
  | override =>
    obtain ⟨f, hf, hs, rfl⟩ := overrideFunction_eq_ok h
    refine ⟨f, hadmits hf hs, fun role' i => ?_⟩
    cases role' <;> simp [bindings, Bindings.insert]

/-- A callback that can be bound to a function is accepted. -/
theorem exists_register (h : role.Admits m.script key y f) :
    ∃ m', role.register m key y = .ok m' := by
  have hf : role.function m.script key = .ok f := function_eq_ok_iff.2 ⟨h.found, h.serves⟩
  have hs : m.script.checkSignature f y.signature = .ok () :=
    Script.checkSignature_of_declaredSignature h.declared
  cases role <;>
    exact ⟨_, Except.bind_eq_ok.2 ⟨f, hf, Except.bind_eq_ok.2 ⟨(), hs, rfl⟩⟩⟩

/-- If all callbacks are bound under the declared signatures, then so is each one in its role. -/
theorem exists_of_matches (hm : Matches m) (h : role.bindings m.registrations i = some y) :
    ∃ f, m.script.symbolByIndex? i = some f ∧ role.Serves f ∧
      m.script.declaredSignature f = .ok y.signature := by
  cases role with
  | external => exact hm.external i y h
  | override =>
    obtain ⟨f, hf, hc, he, hs⟩ := hm.override i y h
    obtain ⟨ht, hc⟩ := Symbol.isCallable_iff.1 hc
    exact ⟨f, hf, ⟨ht, hc, he⟩, hs⟩

/-! ## Requests -/

variable {b : Budget σ} {t : Moment σ} {next : Except Error Unit → Routine σ}

/-- Host code that asks for a callback to be bound goes on with the answer. -/
theorem registered_of_goes (h : Goes b ⟨.routine (role.request key y next), w⟩ t) :
    ∃ r m, Routine.registered w.machine (role.register w.machine key y) = (r, m) ∧
      t = ⟨.routine (next r), { w with machine := m }⟩ := by
  cases role with
  | external =>
    cases h with
    | registerExternal h => exact ⟨_, _, h, rfl⟩
  | override =>
    cases h with
    | overrideFunction h => exact ⟨_, _, h, rfl⟩

/-- The request of host code to bind a typed callback in a role. -/
def requestTyped (key : SymbolKey) (ts : List ArgType) (r : ResultType)
    (g : Args ts → HostAction σ (Except HostFailure r.Carrier)) :
    Role → HostAction σ (Except Error Unit)
  | external => HostAction.registerTyped key ts r g
  | override => HostAction.overrideTyped key ts r g

end Role

/-! ## Typed callbacks -/

namespace Binding

variable {ts : List ArgType} {r : ResultType}
  {g : Args ts → HostAction σ (Except HostFailure r.Carrier)} {args : List Value}

/-- What a typed callback is bound as. -/
def typed (ts : List ArgType) (r : ResultType)
    (g : Args ts → HostAction σ (Except HostFailure r.Carrier)) : Binding σ :=
  ⟨HostAction.typedCallback ts r g, Args.kinds ts, r.kind⟩

theorem request_typed (role : Role) (key : SymbolKey) (next : Except Error Unit → Routine σ) :
    role.requestTyped key ts r g next = role.request key (typed ts r g) next := by
  cases role <;> rfl

/-- A typed callback that is given values of its kinds fails to take them if one is null where this
is not allowed, and does what it is to do with them otherwise. -/
theorem callback_typed (hk : args.map Value.kind = Args.kinds ts) :
    (Args.HasNull ts args →
      (typed ts r g).callback args = .finish (.error (.raised ArgType.nullMismatch))) ∧
    (¬Args.HasNull ts args → ∃ x, Args.ofValues ts args = .ok x ∧
      (typed ts r g).callback args = g x fun result => .finish (result.map r.toValue)) := by
  have hcallback : (typed ts r g).callback args = HostAction.typedCallback ts r g args := rfl
  rw [hcallback, HostAction.typedCallback]
  constructor
  · intro hnull
    rw [Args.ofValues_of_hasNull hk hnull]
  · intro hnull
    obtain ⟨x, hx⟩ := Args.exists_ofValues_iff.2 ((Args.fits_iff_not_hasNull hk).2 hnull)
    rw [hx]
    exact ⟨x, rfl, rfl⟩

end Binding

/-! ## At every moment -/

/-- Take any moment of a run of host code on a machine that runs a loaded script. Every callback is
bound to a function that serves its role, under the signature that the script declares for it. If
host code asks for a callback to be bound, then it is bound to the function that the key stands for,
and no other binding changes in either role, provided that this function serves the role and that
the callback has its signature; otherwise there is an error and nothing changes. A typed callback
whose arguments are taken from the stack fails to take them at its types only because of null. -/
theorem registrations_match {n steps : Nat} {x : Routine σ} {w : World σ} {t : Moment σ}
    (hm : Reachable w.machine) (ht : Passes .any (.nested n steps) ⟨.routine x, w⟩ t)
    (role : Role) :
    (∀ i y, role.bindings t.world.machine.registrations i = some y →
      ∃ f, t.world.machine.script.symbolByIndex? i = some f ∧ role.Serves f ∧
        t.world.machine.script.declaredSignature f = .ok y.signature) ∧
    (∀ b key y next t', Goes b ⟨.routine (role.request key y next), t.world⟩ t' →
      (∃ f m, role.Admits t.world.machine.script key y f ∧
        (∀ role' i, role'.bindings m.registrations i =
          if role' = role ∧ i = f.index then some y
          else role'.bindings t.world.machine.registrations i) ∧
        t' = ⟨.routine (next (.ok ())), { t.world with machine := m }⟩) ∨
      (¬∃ f, role.Admits t.world.machine.script key y f) ∧
        ∃ e, t' = ⟨.routine (next (.error e)), t.world⟩) ∧
    ∀ i ts r g, role.bindings t.world.machine.registrations i = some (.typed ts r g) →
      ∀ f a args a', takeArguments f (.typed ts r g) a = (.ok args, a') →
        (Args.HasNull ts args →
          (Binding.typed ts r g).callback args =
            .finish (.error (.raised ArgType.nullMismatch))) ∧
        (¬Args.HasNull ts args → ∃ x, Args.ofValues ts args = .ok x ∧
          (Binding.typed ts r g).callback args =
            g x fun result => .finish (result.map r.toValue)) := by
  obtain ⟨-, hmatches⟩ := (hm.evolves ht.evolves).matches
  refine ⟨fun i y hy => role.exists_of_matches hmatches hy, fun b key y next t' h => ?_,
    fun i ts r g _ f a args a' h => Binding.callback_typed (takeArguments_ok h).1⟩
  obtain ⟨r, m, hr, rfl⟩ := Role.registered_of_goes h
  cases hregister : role.register t.world.machine key y with
  | error e =>
    rw [hregister] at hr
    obtain ⟨rfl, rfl⟩ := Prod.mk.inj hr
    refine .inr ⟨?_, e, rfl⟩
    rintro ⟨f, hf⟩
    obtain ⟨m', hm'⟩ := Role.exists_register hf
    cases hregister.symm.trans hm'
  | ok m' =>
    rw [hregister] at hr
    obtain ⟨rfl, rfl⟩ := Prod.mk.inj hr
    obtain ⟨f, hf, hbindings⟩ := Role.admits_of_register hregister
    exact .inl ⟨f, m', hf, hbindings, rfl⟩

/-- What a typed callback does that ends its routine at once. -/
def HostAction.quit {α β : Type} : α → HostAction Unit β := fun _ => finish (.ok .void)

/-- A moment at which host code asks for a function to be replaced that is replaced already. The
script declares that it takes a number and returns one. -/
def Moment.replacing (ts : List ArgType) : Moment Unit :=
  ⟨.routine (Role.override.requestTyped (.index 0) ts (.value .int) HostAction.quit
    fun _ => .finish (.ok .void)), .sharing 0 .succ⟩

/-- A callback that takes a truth value replaces the one that takes a number. One that takes a text
is refused. -/
theorem registrations_match_of_sharing :
    (∃ t, Goes (.nested 1 1) (.replacing [.bool]) t ∧
      t.world.machine.registrations.overrides 0 =
        some (.typed [.bool] (.value .int) HostAction.quit) ∧
      t.world.machine.registrations.overrides 2 = none) ∧
    ∃ t, Goes (.nested 1 1) (.replacing [.string]) t ∧ t.world = .sharing 0 .succ := by
  have ht : Passes .any (.nested 1 1) ⟨.routine (.finish (.ok .void)), World.sharing 0 .succ⟩
    ⟨.routine (.finish (.ok .void)), World.sharing 0 .succ⟩ := .refl
  obtain ⟨-, hrequest, -⟩ := registrations_match (RunM.reachable_sharing rfl) ht .override
  have hgoes (ts : List ArgType) : ∃ t, Goes (.nested 1 1) (.replacing ts) t :=
    ⟨_, .overrideFunction rfl⟩
  have hfound : (World.sharing 0 .succ).machine.script.find (.index 0) = .ok .succ := rfl
  have hdeclared : (World.sharing 0 .succ).machine.script.declaredSignature .succ =
    .ok ⟨[.int], .int⟩ := rfl
  constructor
  · obtain ⟨t, h⟩ := hgoes [.bool]
    refine ⟨t, h, ?_⟩
    rw [Moment.replacing, Binding.request_typed] at h
    rcases hrequest _ _ _ _ t h with ⟨f, m, hf, hbindings, rfl⟩ | ⟨hnone, -⟩
    · obtain rfl := Except.ok.inj (hfound.symm.trans hf.found)
      exact ⟨hbindings .override 0, hbindings .override 2⟩
    · exact absurd ⟨.succ, hfound, ⟨rfl, rfl, rfl⟩, hdeclared⟩ hnone
  · obtain ⟨t, h⟩ := hgoes [.string]
    refine ⟨t, h, ?_⟩
    rw [Moment.replacing, Binding.request_typed] at h
    rcases hrequest _ _ _ _ t h with ⟨f, m, hf, -, -⟩ | ⟨-, e, rfl⟩
    · obtain rfl := Except.ok.inj (hfound.symm.trans hf.found)
      cases hdeclared.symm.trans hf.declared
    · rfl

end ScriptMachine
