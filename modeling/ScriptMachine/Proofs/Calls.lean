import ScriptMachine.Execution.Call
import ScriptMachine.Proofs.Instruction
import ScriptMachine.Proofs.Signature

/-!
# The ways of a call

What happens, part by part, when the host calls a function or runs the body of an instance. What can
be checked is checked first, so that a call that is refused has done nothing.

* `Machine.Refusal`, `Machine.Accepts` – the outcomes of the check.
* `Ran` – the ways of a body.
* `Called` – the ways of a call.
* `Initialized`, `Created` – the ways of an instance that is initialized, or allocated as well.
-/

namespace ScriptMachine

namespace Machine

variable {σ : Type} {m m' : Machine σ}

/-! ## Whether a machine is usable -/

theorem isPoisoned_eq_false : m.isPoisoned = false ↔ m.poison = none := by
  rw [isPoisoned, Option.isSome_eq_false_iff, Option.isNone_iff_eq_none]

theorem ensureUsable_of_poison (h : m.poison ≠ none) : m.ensureUsable = .error .poisoned := by
  have hp : m.isPoisoned = true := Option.isSome_iff_ne_none.2 h
  rw [ensureUsable, hp]
  rfl

/-- The check succeeds for a usable machine only. -/
theorem poison_of_ensureUsable {u : Unit} (h : m.ensureUsable = .ok u) : m.poison = none := by
  rcases hp : m.poison with _ | t
  · rfl
  · rw [ensureUsable_of_poison (by simp [hp])] at h
    cases h

theorem ensureUsable_of_usable (h : m.poison = none) : m.ensureUsable = .ok () := by
  rw [ensureUsable, isPoisoned_eq_false.2 h]
  rfl

/-! ## Calls that are refused -/

/-- The causes for which a call is refused, with the error of each. -/
inductive Refusal (m : Machine σ) (key : SymbolKey) (args : List Value) (expected : Option Kind) :
    Error → Prop where
  /-- The machine is unusable. -/
  | unusable (h : m.isPoisoned = true) : Refusal m key args expected .poisoned
  /-- There is no such symbol. -/
  | unresolved (h : m.script.resolve? key = none) :
      Refusal m key args expected (.symbolNotFound key)
  /-- The symbol is no function. -/
  | notCallable {f : Symbol} (hf : m.script.resolve? key = some f) (h : f.isCallable = false) :
      Refusal m key args expected (.notAFunction f.name)
  /-- The function takes or returns what cannot cross the stack. -/
  | undeclarable {f : Symbol} {e : Error} (hf : m.script.resolve? key = some f)
      (h : m.script.declaredSignature f = .error e) : Refusal m key args expected e
  /-- The function takes another number of arguments. -/
  | arity {f : Symbol} {s : Signature} (hf : m.script.resolve? key = some f)
      (hs : m.script.declaredSignature f = .ok s) (h : args.length ≠ s.params.length) :
      Refusal m key args expected
        (.signatureMismatch f.name (.argumentCount s.params.length args.length))
  /-- The function takes an argument of another kind. -/
  | argument {f : Symbol} {s : Signature} {i : Nat} {got k : Kind}
      (hf : m.script.resolve? key = some f) (hs : m.script.declaredSignature f = .ok s)
      (hg : (args.map Value.kind)[i]? = some got) (hk : s.params[i]? = some k) (h : got ≠ k) :
      Refusal m key args expected (.signatureMismatch f.name (.argumentKind i got k))
  /-- The function returns another kind. -/
  | result {f : Symbol} {s : Signature} {k : Kind} (hf : m.script.resolve? key = some f)
      (hs : m.script.declaredSignature f = .ok s) (hk : expected = some k) (h : k ≠ s.result) :
      Refusal m key args expected (.signatureMismatch f.name (.returnKind s.result k))

/-- What is checked of a call of the function `f`, which has the signature `s`. -/
structure Accepts (m : Machine σ) (key : SymbolKey) (args : List Value) (expected : Option Kind)
    (f : Symbol) (s : Signature) : Prop where
  usable : m.poison = none
  found : m.script.resolve? key = some f
  callable : f.isCallable = true
  declared : m.script.declaredSignature f = .ok s
  kinds : args.map Value.kind = s.params
  expects : ∀ k, expected = some k → k = s.result

/-- A call for which there is a cause to refuse it does not pass the checks. -/
theorem Refusal.not_accepts {key : SymbolKey} {args : List Value} {expected : Option Kind}
    {e : Error} (h : Refusal m key args expected e) {f : Symbol} {s : Signature} :
    ¬ Accepts m key args expected f s := by
  intro ha
  have hfound : ∀ {g}, m.script.resolve? key = some g → g = f :=
    fun hg => Option.some.inj (hg.symm.trans ha.found)
  have hdeclared : ∀ {t}, m.script.declaredSignature f = .ok t → t = s :=
    fun ht => Except.ok.inj (ht.symm.trans ha.declared)
  cases h with
  | unusable h =>
    rw [isPoisoned_eq_false.2 ha.usable] at h
    cases h
  | unresolved h =>
    rw [ha.found] at h
    cases h
  | notCallable hf h =>
    rw [hfound hf, ha.callable] at h
    cases h
  | undeclarable hf h =>
    rw [hfound hf, ha.declared] at h
    cases h
  | arity hf hs h =>
    obtain rfl := hfound hf
    obtain rfl := hdeclared hs
    rw [← ha.kinds, List.length_map] at h
    exact h rfl
  | argument hf hs hg hk h =>
    obtain rfl := hfound hf
    obtain rfl := hdeclared hs
    rw [ha.kinds, hk, Option.some.injEq] at hg
    exact h hg.symm
  | result hf hs hk h =>
    obtain rfl := hfound hf
    obtain rfl := hdeclared hs
    exact h (ha.expects _ hk)

/-- A call is refused for one of the causes, or all that is checked of it holds. -/
theorem checkCall_cases (m : Machine σ) (key : SymbolKey) (args : List Value)
    (expected : Option Kind) :
    (∃ e, m.checkCall key args expected = .error e ∧ Refusal m key args expected e) ∨
      ∃ f s, m.checkCall key args expected = .ok (f, s.result) ∧
        Accepts m key args expected f s := by
  -- one check after the other: if it fails, this is the cause, else the next one follows
  rw [checkCall]
  by_cases hp : m.poison ≠ none
  · rw [ensureUsable_of_poison hp]
    exact .inl ⟨_, rfl, .unusable (Option.isSome_iff_ne_none.2 hp)⟩
  have hp : m.poison = none := Decidable.of_not_not hp
  rw [ensureUsable_of_usable hp, Script.find]
  rcases hf : m.script.resolve? key with _ | f
  · exact .inl ⟨_, rfl, .unresolved hf⟩
  rcases hc : f.isCallable with _ | _
  · refine .inl ⟨_, ?_, .notCallable hf hc⟩
    simp only [hc, bind, Except.bind]
    rfl
  rcases hs : m.script.declaredSignature f with e | s
  · refine .inl ⟨e, ?_, .undeclarable hf hs⟩
    simp only [hc, hs, bind, Except.bind]
    rfl
  by_cases hl : args.length ≠ s.params.length
  · refine .inl ⟨_, ?_, .arity hf hs hl⟩
    simp only [hc, hs, bind, Except.bind, if_pos hl]
    rfl
  by_cases hd : Script.firstDifference (args.map Value.kind) s.params 0 ≠ none
  · obtain ⟨⟨i, got, k⟩, hd⟩ := Option.ne_none_iff_exists'.1 hd
    obtain ⟨-, hg, hk, hne⟩ := Script.firstDifference_eq_some hd
    refine .inl ⟨_, ?_, .argument hf hs hg hk hne⟩
    simp only [hc, hs, hd, bind, Except.bind, if_neg hl]
    rfl
  have hd := Decidable.of_not_not hd
  have hkinds := Script.eq_of_firstDifference_eq_none hd (by simpa using hl)
  rcases expected with _ | k
  · refine .inr ⟨f, s, ?_, hp, hf, hc, hs, hkinds, by simp⟩
    simp only [hc, hs, hd, bind, Except.bind, if_neg hl]
    rfl
  by_cases hk : k = s.result
  · refine .inr ⟨f, s, ?_, hp, hf, hc, hs, hkinds, by simpa using hk⟩
    simp only [hc, hs, hd, bind, Except.bind, if_neg hl, if_pos hk]
    rfl
  · refine .inl ⟨_, ?_, .result hf hs rfl hk⟩
    simp only [hc, hs, hd, bind, Except.bind, if_neg hl, if_neg hk]
    rfl

/-- The body of an instance is run by a usable machine only. -/
theorem usable_of_checkBody {x : Handle} {s : Symbol} (h : m.checkBody x = .ok s) :
    m.poison = none := by
  rcases hu : m.ensureUsable with e | u
  · rw [checkBody, hu] at h
    cases h
  · exact poison_of_ensureUsable hu

theorem checkBody_of_poison (h : m.poison ≠ none) (x : Handle) :
    m.checkBody x = .error .poisoned := by
  rw [checkBody, ensureUsable_of_poison h]
  rfl

end Machine

open Machine

variable {σ : Type}

/-- The ways of a body: it is not entered because too many are active, it is left, or it fails. An
error makes the machine unusable and leaves all bodies that were entered since. -/
inductive Ran (b : Budget σ) (f address : UInt32) (w : World σ) :
    Except Error Unit → World σ → Prop where
  | refused (e : Error) :
      Ran b f address w (.error e)
        { w with machine := (w.machine.poisonWith e).unwind w.machine.frames.length }
  | left {w' : World σ} (depth : w.machine.frames.length < w.machine.config.maxCallDepth)
      (hl : RunM.loop b { w with machine := w.machine.entered (some f) address true } =
        some (.ok (), w')) :
      Ran b f address w (.ok ()) w'
  | failed {e : Error} {u : World σ}
      (depth : w.machine.frames.length < w.machine.config.maxCallDepth)
      (hl : RunM.loop b { w with machine := w.machine.entered (some f) address true } =
        some (.error e, u)) :
      Ran b f address w (.error e)
        { u with machine := (u.machine.poisonWith e).unwind w.machine.frames.length }

/-- The ways of a call: it is refused, the function fails, its result is not there, or it returns.
An error of the last two kinds makes the machine unusable. -/
inductive Called (b : Budget σ) (key : SymbolKey) (args : List Value) (expected : Option Kind)
    (w : World σ) : Except Error Value → World σ → Prop where
  | refused {e : Error} (h : Refusal w.machine key args expected e) :
      Called b key args expected w (.error e) w
  | failed {f : Symbol} {s : Signature} {e : Error} {u : World σ}
      (ha : Accepts w.machine key args expected f s)
      (hi : RunM.invoke b f { w with machine := w.machine.beginCall f args } = some (.error e, u)) :
      Called b key args expected w (.error e) { u with machine := u.machine.poisonWith e }
  | noResult {f : Symbol} {s : Signature} {e : Error} {u : World σ} {m : Machine σ}
      (ha : Accepts w.machine key args expected f s)
      (hi : RunM.invoke b f { w with machine := w.machine.beginCall f args } = some (.ok (), u))
      (ht : takeResult f s.result w.machine.stack.length u.machine = (.error e, m)) :
      Called b key args expected w (.error e) { u with machine := m.poisonWith e }
  | returned {f : Symbol} {s : Signature} {v : Value} {u : World σ} {m : Machine σ}
      (ha : Accepts w.machine key args expected f s)
      (hi : RunM.invoke b f { w with machine := w.machine.beginCall f args } = some (.ok (), u))
      (ht : takeResult f s.result w.machine.stack.length u.machine = (.ok v, m)) :
      Called b key args expected w (.ok (if expected.isSome then v else .void))
        { u with machine := m }

/-- The ways of the body of an instance: it is refused, it fails, or it is left and the instance is
marked. Whether it fails or not, what it displaced is put back. -/
inductive Initialized (b : Budget σ) (x : Handle) (w : World σ) :
    Except Error Unit → World σ → Prop where
  | refused {e : Error} (hs : w.machine.checkBody x = .error e) : Initialized b x w (.error e) w
  | failed {s : Symbol} {e : Error} {u : World σ} (hs : w.machine.checkBody x = .ok s)
      (hr : RunM.runFunction b s.index s.address
        { w with machine := w.machine.beginBody s x } = some (.error e, u)) :
      Initialized b x w (.error e) { u with machine := u.machine.restore w.machine.displaced }
  | left {s : Symbol} {u : World σ} {r : Except Error Unit} {m : Machine σ}
      (hs : w.machine.checkBody x = .ok s)
      (hr : RunM.runFunction b s.index s.address
        { w with machine := w.machine.beginBody s x } = some (.ok (), u))
      (hm : markInitialized x (u.machine.restore w.machine.displaced) = (r, m)) :
      Initialized b x w r { u with machine := m }

/-- The ways of an instance that is created: the machine is unusable, no instance can be allocated,
or its body is run. -/
inductive Created (b : Budget σ) (key : SymbolKey) (tag : InstanceTag) (w : World σ) :
    Except Error Handle → World σ → Prop where
  | refused (hu : w.machine.poison ≠ none) : Created b key tag w (.error .poisoned) w
  | failed {e : Error} {m : Machine σ} (hu : w.machine.poison = none)
      (ha : alloc key tag w.machine = (.error e, m)) :
      Created b key tag w (.error e) { w with machine := m }
  | ran {x : Handle} {m : Machine σ} {r : Except Error Unit} {w' : World σ}
      (hu : w.machine.poison = none) (ha : alloc key tag w.machine = (.ok x, m))
      (hr : Initialized b x { w with machine := m } r w') :
      Created b key tag w (r.map fun _ => x) w'

namespace RunM

variable {b : Budget σ} {w w' : World σ}

theorem runFunction_eq_some {f a : UInt32} {r : Except Error Unit}
    (h : runFunction b f a w = some (r, w')) : Ran b f a w r w' := by
  rw [runFunction, machine_bind] at h
  obtain ⟨v, hv, rfl⟩ := andThen_eq_some.1 h
  rcases bind_eq_some.1 hv with ⟨u, v₁, he, hl⟩ | ⟨e, he, rfl⟩
  · obtain ⟨he, hv₁⟩ := onMachine_eq_some.1 he
    obtain ⟨depth, hm⟩ := enter_ok he
    rw [hv₁, hm] at hl
    cases r with
    | ok => exact .left depth hl
    | error e => exact .failed depth hl
  · obtain ⟨he, hw⟩ := onMachine_eq_some.1 he
    rw [hw, enter_error he]
    exact .refused e

/-- A function is run by the callback that replaces it, by the callback of an external function, or
through its body. -/
theorem invoke_eq_some {f : Symbol} {r : Except Error Unit} (h : invoke b f w = some (r, w')) :
    (w.machine.hasOverride f.index = true ∧ callOverride b f.index w = some (r, w')) ∨
      (f.isExternal = true ∧ callExternal b f.index w = some (r, w')) ∨
        (w.machine.hasOverride f.index = false ∧ f.isExternal = false ∧
          runFunction b f.index f.address w = some (r, w')) := by
  rw [invoke, machine_bind] at h
  rcases ho : w.machine.hasOverride f.index with _ | _
  · rcases he : f.isExternal with _ | _
    · rw [ho, he] at h
      exact .inr (.inr ⟨rfl, rfl, h⟩)
    · rw [ho, he] at h
      exact .inr (.inl ⟨rfl, h⟩)
  · rw [ho] at h
    exact .inl ⟨rfl, h⟩

theorem call_eq_some {key : SymbolKey} {args : List Value} {expected : Option Kind}
    {r : Except Error Value} (h : call b key args expected w = some (r, w')) :
    Called b key args expected w r w' := by
  rw [call, machine_bind, lift_bind] at h
  rcases checkCall_cases w.machine key args expected with ⟨e, hc, he⟩ | ⟨f, s, hc, ha⟩
  · rw [hc] at h
    obtain ⟨rfl, rfl⟩ := Prod.mk.inj (Option.some.inj h)
    exact .refused he
  rw [hc] at h
  simp only [modifyMachine_bind] at h
  rcases bind_eq_some.1 h with ⟨v, u, h₁, h₂⟩ | ⟨e, h₁, rfl⟩
  · obtain ⟨rfl, rfl⟩ := Prod.mk.inj (Option.some.inj h₂)
    obtain ⟨v₁, h₃, rfl⟩ := andThen_eq_some.1 h₁
    obtain ⟨a, v₂, hi, ht⟩ := bind_eq_ok.1 h₃
    obtain ⟨ht, hv⟩ := onMachine_eq_some.1 ht
    rw [hv]
    exact .returned (u := v₂) ha hi ht
  · obtain ⟨v₁, h₃, rfl⟩ := andThen_eq_some.1 h₁
    rcases bind_eq_some.1 h₃ with ⟨a, v₂, hi, ht⟩ | ⟨e', hi, he⟩
    · obtain ⟨ht, hv⟩ := onMachine_eq_some.1 ht
      rw [hv]
      exact .noResult (u := v₂) ha hi ht
    · obtain rfl := Except.error.inj he
      exact .failed ha hi

theorem runBody_eq_some {x : Handle} {r : Except Error Unit}
    (h : runBody b x w = some (r, w')) : Initialized b x w r w' := by
  rw [runBody, machine_bind, lift_bind] at h
  rcases hs : w.machine.checkBody x with e | s
  · rw [hs] at h
    obtain ⟨rfl, rfl⟩ := Prod.mk.inj (Option.some.inj h)
    exact .refused hs
  rw [hs] at h
  simp only [modifyMachine_bind] at h
  rcases bind_eq_some.1 h with ⟨a, u, h₁, h₂⟩ | ⟨e, h₁, rfl⟩
  · obtain ⟨v, hr, rfl⟩ := andThen_eq_some.1 h₁
    obtain ⟨hm, hw⟩ := onMachine_eq_some.1 h₂
    rw [hw]
    exact .left (u := v) hs hr hm
  · obtain ⟨v, hr, rfl⟩ := andThen_eq_some.1 h₁
    exact .failed hs hr

theorem create_eq_some {key : SymbolKey} {tag : InstanceTag} {r : Except Error Handle}
    (h : create b key tag w = some (r, w')) : Created b key tag w r w' := by
  rw [create, machine_bind, lift_bind] at h
  by_cases hu : w.machine.poison ≠ none
  · rw [ensureUsable_of_poison hu] at h
    obtain ⟨rfl, rfl⟩ := Prod.mk.inj (Option.some.inj h)
    exact .refused hu
  have hu := Decidable.of_not_not hu
  rw [ensureUsable_of_usable hu] at h
  rcases bind_eq_some.1 h with ⟨x, u, h₁, h₂⟩ | ⟨e, h₁, rfl⟩
  · obtain ⟨ha, hv⟩ := onMachine_eq_some.1 h₁
    rw [hv] at h₂
    rcases bind_eq_some.1 h₂ with ⟨a, v, h₃, h₄⟩ | ⟨e, h₃, rfl⟩
    · obtain ⟨rfl, rfl⟩ := Prod.mk.inj (Option.some.inj h₄)
      exact .ran hu ha (runBody_eq_some h₃)
    · exact .ran hu ha (runBody_eq_some h₃)
  · obtain ⟨ha, hw⟩ := onMachine_eq_some.1 h₁
    rw [hw]
    exact .failed hu ha

end RunM

end ScriptMachine
