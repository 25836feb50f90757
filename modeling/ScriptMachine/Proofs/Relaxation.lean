import ScriptMachine.Proofs.Parallel

/-!
# Relaxed configurations

A configuration can only make something fail: the flags and the limits are looked at where an
access, a call or an allocation would be refused otherwise. So what succeeds under a configuration
does the same under one that relaxes it, as long as no callback can find out about the difference.

* `Machine.under` – a machine with another configuration.
* `Machine.mirrors_under` – a machine without callbacks is mirrored under a relaxed configuration.
* `RunM.succeeds_under` – calls and bodies of instances that succeed.
-/

namespace ScriptMachine

variable {σ : Type}

/-- Whether no callback is registered. -/
structure Registrations.Empty (r : Registrations σ) : Prop where
  externals : ∀ i, r.externals i = .none
  overrides : ∀ i, r.overrides i = .none
  fallback : r.fallback = .none

/-- Where no callback is registered, all of them have any property. -/
theorem Registrations.Empty.all {r : Registrations σ} (h : r.Empty) (P : Routine σ → Prop) :
    r.All P where
  externals i x _ hx := by
    rw [h.externals i] at hx
    cases hx
  overrides i x _ hx := by
    rw [h.overrides i] at hx
    cases hx
  fallback g _ hg := by
    rw [h.fallback] at hg
    cases hg

namespace Machine

/-- The machine with another configuration. -/
def under (m : Machine σ) (c : Config) : Machine σ :=
  { m with config := c, memory := m.memory.withLimit c.maxInstances }

variable {m m' : Machine σ} {c : Config}

/-- A machine without callbacks is mirrored by itself under a relaxed configuration. -/
theorem mirrors_under (he : m.registrations.Empty) (hc : m.config.RelaxedBy c) :
    m.Mirrors (.relaxed c) m.frames m.frames (m.under c) where
  script := rfl
  config := rfl
  allows := hc
  stack := rfl
  memory := rfl
  registrations := rfl
  callbacks := he.all _
  pc := rfl
  context := rfl
  usable := rfl
  traces := False.elim
  log := rfl
  depth := rfl
  frames := ⟨[], rfl, rfl, nofun⟩

/-- A usable machine is mirrored by nothing else, if the bodies that were active are the same. -/
theorem Mirrors.eq_under {t : List Frame} (h : m.Mirrors (.relaxed c) t t m')
    (hu : m.poison = none) : m' = m.under c := by
  obtain ⟨inner, hm, hm', -⟩ := h.frames
  have hp := h.poison_eq_none hu
  calc m' = ⟨m'.script, m'.config, m'.stack, m'.memory, m'.registrations, m'.frames, m'.pc,
        m'.context, m'.poison, m'.log⟩ := rfl
    _ = ⟨m.script, c, m.stack, m.memory.withLimit c.maxInstances, m.registrations, m.frames, m.pc,
        m.context, m.poison, m.log⟩ := by
      have hlog : m'.log = m.log := h.log
      have hconfig : m'.config = c := h.config
      have hmemory : m'.memory = m.memory.withLimit c.maxInstances := h.memory
      rw [h.script, hconfig, h.stack, hmemory, h.registrations, hm', ← hm, h.pc, h.context, hp, hu,
        hlog]
    _ = m.under c := rfl

end Machine

/-- The world with another configuration. -/
def World.under (w : World σ) (c : Config) : World σ := { w with machine := w.machine.under c }

/-! ## Small scripts -/

/-- A class with a member, an instance whose body sets it, and a function whose body calls one that
has no name. -/
def Script.guarded : Script :=
  .ofParts 50
    [.blank "C" 0 .cls none, { Symbol.blank "C.X" 1 .int (some 0) with flags := .member },
      { Symbol.blank "THING" 2 .inst (some 0) with flags := .const, count := 0, address := 7 },
      .body "MAIN" 3 0]
    #[61, 6, 0, 0, 0, 60, 60, 64, 7, 0, 0, 0, 65, 1, 0, 0, 0, 9, 60]

/-- A machine with the instance, on which nothing is relaxed. -/
def World.guarded : World Unit :=
  ⟨(), (Machine.alloc (.index 2) .unknown (.new .guarded (.deep 2))).2⟩

/-- A configuration that relaxes all there is to relax. -/
def Config.lenient : Config where
  flags := ⟨ExecutionFlags.allowNullInstance.bits ||| ExecutionFlags.ignoreConst.bits⟩
  maxInstances := 70000
  maxCallDepth := 3

namespace RunM

open Machine

variable {w w' : World σ} {c : Config}

/-- The body of an instance that succeeds leaves a usable machine. -/
theorem usable_of_runBody {b : Budget σ} {x : Handle} (h : runBody b x w = some (.ok (), w')) :
    w'.machine.poison = none := by
  generalize hr : (.ok () : Except Error Unit) = r at h
  cases runBody_eq_some h with
  | refused => cases hr
  | failed => cases hr
  | @left s u _ m hs hrun hm =>
    have hu : u.machine.poison = none := usable_of_runFunction hrun (usable_of_checkBody hs)
    rcases markInitialized_eq hm with ⟨memory, -, -, rfl⟩ | ⟨e, -, rfl⟩
    · exact hu
    · exact hu

/-- A run that ends alike on machines that mirror each other, and leaves a usable one if it
succeeds, does the same under a relaxed configuration. -/
theorem Mirrors.under {α : Type} {x : RunM σ α} {a : α} (hx : Mirrors (.relaxed c) x)
    (he : w.machine.registrations.Empty) (hc : w.machine.config.RelaxedBy c)
    (h : x w = some (.ok a, w')) (hu : w'.machine.poison = none) :
    x (w.under c) = some (.ok a, w'.under c) := by
  have hw : w.Mirrors (.relaxed c) w.machine.frames w.machine.frames (w.under c) :=
    ⟨rfl, mirrors_under he hc⟩
  obtain ⟨v, hv, hm⟩ := hx hw h (Terms.counts_ok a)
  have hworld : v = w'.under c := by
    rw [World.under, ← hm.machine.eq_under hu, ← hm.host]
  rwa [hworld] at hv

/-- Take a configuration that has all the flags of the one a machine has, and no lower limit, and no
callbacks. A call of a function, and the body of an instance, that succeed on the machine succeed on
the machine with that configuration too, with the same result, and what they leave is the same apart
from the configuration. -/
theorem succeeds_under (n steps : Nat) {w : World σ} {c : Config}
    (he : w.machine.registrations.Empty) (hc : w.machine.config.RelaxedBy c) :
    (∀ key args expected v w',
      call (.nested n steps) key args expected w = some (.ok v, w') →
      call (.nested n steps) key args expected (w.under c) = some (.ok v, w'.under c)) ∧
    ∀ x w', runBody (.nested n steps) x w = some (.ok (), w') →
      runBody (.nested n steps) x (w.under c) = some (.ok (), w'.under c) := by
  -- no callback may be registered on these terms
  have hb : (Budget.nested n steps : Budget σ).callback.Mirrors (.relaxed c) :=
    fun _ _ _ _ _ _ _ hx => hx.elim
  have hcontrol := nested_keeps_sameControl (σ := σ) n steps
  constructor
  · intro key args expected v w' h
    have hu := isPoisoned_eq_false.1 ((call_outcome h).1 v rfl)
    exact (mirrors_call hb hcontrol key args expected).under he hc h hu
  · intro x w' h
    exact (mirrors_runBody hb hcontrol x).under he hc h (usable_of_runBody h)

/-- A function whose body calls another one, and the body of an instance. -/
theorem succeeds_under_of_guarded :
    (∃ w', call (.nested 1 4) (.index 3) [] none World.guarded = some (.ok .void, w') ∧
      call (.nested 1 4) (.index 3) [] none (World.guarded.under .lenient) =
        some (.ok .void, w'.under .lenient)) ∧
    ∃ w', runBody (.nested 1 4) ⟨0, 0, 2, .unknown⟩ World.guarded = some (.ok (), w') ∧
      runBody (.nested 1 4) ⟨0, 0, 2, .unknown⟩ (World.guarded.under .lenient) =
        some (.ok (), w'.under .lenient) := by
  have he : World.guarded.machine.registrations.Empty := ⟨fun _ => rfl, fun _ => rfl, rfl⟩
  have hc : World.guarded.machine.config.RelaxedBy .lenient := ⟨by decide, by decide, by decide⟩
  obtain ⟨hcall, hbody⟩ := succeeds_under 1 4 he hc
  have hcalled : ∃ p ∈ call (.nested 1 4) (.index 3) [] none World.guarded, p.1 = .ok .void := by
    decide +kernel
  have hran : ∃ p ∈ runBody (.nested 1 4) ⟨0, 0, 2, .unknown⟩ World.guarded, p.1 = .ok () := by
    decide +kernel
  obtain ⟨⟨_, w₁⟩, h₁, rfl⟩ := hcalled
  obtain ⟨⟨_, w₂⟩, h₂, rfl⟩ := hran
  exact ⟨⟨w₁, h₁, hcall _ _ _ _ _ h₁⟩, ⟨w₂, h₂, hbody _ _ h₂⟩⟩

end RunM

end ScriptMachine
