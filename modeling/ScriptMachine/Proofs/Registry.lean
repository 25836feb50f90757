import ScriptMachine.Proofs.Change
import ScriptMachine.Proofs.Signature
import ScriptMachine.Proofs.SymbolTable

/-!
# Registered callbacks

A callback is bound to a function only under the signature that the script declares for it, and
since a loaded script finds its functions at their own indices, this is the signature of the
function that the callback will be run for.

* `Machine.Matches` – whether all callbacks are bound under the declared signatures.
* `Machine.Evolves.matches` – nothing that happens to a machine changes that.
* `Machine.Reachable` – the machines that run a loaded script.
-/

namespace ScriptMachine

namespace Script

variable {p : Script} {key : SymbolKey} {f : Symbol}

theorem externalFunction_eq_ok (h : p.externalFunction key = .ok f) :
    p.find key = .ok f ∧ f.isExternal = true := by
  obtain ⟨g, hg, h⟩ := Except.bind_eq_ok.1 h
  split at h
  · next he =>
    obtain rfl := Except.ok.inj h
    exact ⟨hg, he⟩
  · cases h

theorem scriptFunction_eq_ok (h : p.scriptFunction key = .ok f) :
    p.find key = .ok f ∧ f.isCallable = true ∧ f.isExternal = false := by
  obtain ⟨g, hg, h⟩ := Except.bind_eq_ok.1 h
  split at h
  · next hc =>
    obtain rfl := Except.ok.inj h
    exact ⟨hg, by simpa using hc⟩
  · cases h

end Script

/-- A callback that is bound after another one was bound is that one, or was bound before. -/
theorem Bindings.eq_or_of_insert_eq_some {σ : Type} {b : Bindings σ} {i j : UInt32}
    {x y : Binding σ} (h : b.insert i x j = some y) : j = i ∧ x = y ∨ b j = some y := by
  by_cases hj : j = i
  · rw [hj, insert_self, Option.some.injEq] at h
    exact .inl ⟨hj, h⟩
  · rw [insert_of_ne b hj] at h
    exact .inr h

namespace Machine

variable {σ : Type} {m m' : Machine σ}

/-- Whether every callback is bound under the signature that the script declares for the function
at its index. -/
structure Matches (m : Machine σ) : Prop where
  external : ∀ i x, m.registrations.externals i = some x →
    ∃ f, m.script.symbolByIndex? i = some f ∧ f.isExternal = true ∧
      m.script.declaredSignature f = .ok x.signature
  override : ∀ i x, m.registrations.overrides i = some x →
    ∃ f, m.script.symbolByIndex? i = some f ∧ f.isCallable = true ∧ f.isExternal = false ∧
      m.script.declaredSignature f = .ok x.signature

/-- Machines with the same script and the same callbacks bound to functions match alike. -/
theorem Matches.congr (h : Matches m) (hs : m'.script = m.script)
    (he : m'.registrations.externals = m.registrations.externals)
    (ho : m'.registrations.overrides = m.registrations.overrides) : Matches m' := by
  constructor
  · rw [he, hs]
    exact h.external
  · rw [ho, hs]
    exact h.override

/-- An edit binds a callback under the declared signature only. -/
theorem Edit.matches (h : Edit m m') (hp : m.script.Indexed) (hm : Matches m) : Matches m' := by
  cases h with
  | fail h e =>
    rw [poisonWith, h]
    exact hm.congr rfl rfl rfl
  | registerExternal h =>
    obtain ⟨f, hf, hs, log, rfl, -⟩ := registerExternal_eq_ok h
    -- the callback is bound to the index of the function, where the function itself is found
    obtain ⟨hf, he⟩ := Script.externalFunction_eq_ok hf
    refine ⟨fun i x hx => ?_, hm.override⟩
    rcases Bindings.eq_or_of_insert_eq_some hx with ⟨rfl, rfl⟩ | hx
    · exact ⟨f, hp _ _ hf (.inl he), he, Script.checkSignature_eq_ok hs⟩
    · exact hm.external i x hx
  | overrideFunction h =>
    obtain ⟨f, hf, hs, rfl⟩ := overrideFunction_eq_ok h
    obtain ⟨hf, hc, he⟩ := Script.scriptFunction_eq_ok hf
    refine ⟨hm.external, fun i x hx => ?_⟩
    rcases Bindings.eq_or_of_insert_eq_some hx with ⟨rfl, rfl⟩ | hx
    · exact ⟨f, hp _ _ hf (.inr hc), hc, he, Script.checkSignature_eq_ok hs⟩
    · exact hm.override i x hx
  | reportUnregistered f =>
    rw [Machine.reportUnregistered]
    split
    · exact hm
    · exact hm.congr rfl rfl rfl
  | _ => exact hm.congr rfl rfl rfl

theorem Change.matches (h : Change m m') (hp : m.script.Indexed) (hm : Matches m) :
    Matches m' := by
  rcases h.edit_or_sameData with h | h
  · exact h.matches hp hm
  · exact hm.congr h.script (congrArg _ h.registrations) (congrArg _ h.registrations)

/-- Whatever happens to a machine, its callbacks stay bound under the declared signatures. -/
theorem Evolves.matches (h : Evolves m m') (hp : m.script.Indexed) (hm : Matches m) :
    m'.script = m.script ∧ Matches m' := by
  induction h with
  | refl => exact ⟨rfl, hm⟩
  | tail _ h ih =>
    exact ⟨h.script_eq.trans ih.1, h.matches (ih.1 ▸ hp) ih.2⟩

/-! ## Machines that run a loaded script -/

/-- Whether a machine has come about from one that runs a loaded script and has not run yet. -/
def Reachable (m : Machine σ) : Prop :=
  ∃ enc bytes p c, Script.load enc bytes = .ok p ∧ Evolves (new p c) m

theorem Reachable.evolves (h : Reachable m) (h' : Evolves m m') : Reachable m' := by
  obtain ⟨enc, bytes, p, c, hl, hm⟩ := h
  exact ⟨enc, bytes, p, c, hl, hm.trans h'⟩

/-- A machine that has not run yet has no callbacks. -/
theorem matches_new (p : Script) (c : Config) : Matches (σ := σ) (new p c) :=
  ⟨fun _ _ h => (nomatch h), fun _ _ h => (nomatch h)⟩

/-- The callbacks of a machine that runs a loaded script are bound under the declared signatures. -/
theorem Reachable.matches (h : Reachable m) : m.script.Indexed ∧ Matches m := by
  obtain ⟨enc, bytes, p, c, hl, hm⟩ := h
  have hp := Script.indexed_of_load hl
  obtain ⟨hs, hm⟩ := hm.matches hp (matches_new p c)
  exact ⟨hs ▸ hp, hm⟩

end Machine

end ScriptMachine
