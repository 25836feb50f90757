import ScriptMachine.Proofs.Moment
import ScriptMachine.Proofs.Registry

/-!
# What becomes of a pop

Host code pops entries off the stack at a kind, also in callbacks that run in the middle of script
code. An entry that cannot serve the kind makes the machine unusable, so that it does not matter
whether the host drops the error. A reference serves every kind, but reading it may fail, and that
error is for the host to pass on: the entry is gone, and the machine is as usable as before.

* `Machine.Lost` – machines on which no script code goes on.
* `Machine.Unreadable` – the references that cannot be read.
* `Machine.pop_outcome` – the three ways in which a pop ends.
* `Machine.not_lost_of_failed_pop` – script code that goes on after a pop that failed.
-/

namespace ScriptMachine

variable {σ : Type}

/-- A value other than no value has the kind of a cell. -/
theorem CellKind.exists_of_ne_void {k : Kind} (hk : k ≠ .void) :
    ∃ c, ofKind? k = some c ∧ c.kind = k := by
  cases k with
  | int => exact ⟨.int, rfl, rfl⟩
  | float => exact ⟨.float, rfl, rfl⟩
  | string => exact ⟨.string, rfl, rfl⟩
  | inst => exact ⟨.inst, rfl, rfl⟩
  | void => exact absurd rfl hk

namespace Machine

variable {m : Machine σ} {e : Entry} {rest : List Entry} {k : Kind}

/-- A value is popped as the content of a cell is. -/
theorem popValue_eq_map {c : CellKind} (hc : CellKind.ofKind? k = some c) (m : Machine σ) :
    popValue k m = ((pop c m).1.map c.toValue, (pop c m).2) := by
  rw [popValue, hc]
  rcases hp : pop c m with ⟨_ | a, n⟩
  · exact MachineM.bind_eq.2 (.inr ⟨_, hp, rfl⟩)
  · exact MachineM.bind_eq.2 (.inl ⟨a, n, hp, rfl⟩)

/-- Whether a machine is lost: whatever host code goes on with it, at no moment has an instruction
been executed, can a body be run, or is the result of a callback accepted. -/
def Lost (m : Machine σ) : Prop :=
  ∀ (n steps : Nat) (x : Routine σ) (host : σ) (t : Moment σ),
    Passes .any (.nested n steps) ⟨.routine x, ⟨host, m⟩⟩ t →
    Silent m t.world.machine ∧ t.world.machine.ensureUsable = .error .poisoned ∧
      ∀ f b v, giveResult f b v t.world.machine = (.error .poisoned, t.world.machine)

/-- A callback cannot give a result to a machine that is unusable. -/
theorem giveResult_of_poison (h : m.poison ≠ none) (f : Symbol) (b : Binding σ) (v : Value) :
    giveResult f b v m = (.error .poisoned, m) := by
  rw [giveResult, MachineM.get_bind, MachineM.lift_bind, ensureUsable_of_poison h]

/-- Unusable machines are lost. -/
theorem lost_of_poison (h : m.isPoisoned = true) : Lost m := by
  obtain ⟨trace, htrace⟩ := Option.isSome_iff_exists.1 h
  intro n steps x host t hpasses
  obtain ⟨hp, hsilent⟩ := hpasses.evolves.of_poison htrace
  have hne : t.world.machine.poison ≠ none := by
    rw [hp]
    exact Option.some_ne_none trace
  exact ⟨hsilent, ensureUsable_of_poison hne, giveResult_of_poison hne⟩

/-- Whether an entry is a reference that cannot be read at a kind, because of an error. -/
def Unreadable (m : Machine σ) (k : Kind) (e : Entry) (err : Error) : Prop :=
  ∃ r c, e = .reference r ∧ CellKind.ofKind? k = some c ∧ m.read c r = .error err

/-- Values and literals are popped or found not to serve the kind: only a reference can be there and
fail to be read. -/
theorem unreadable_of_content? {c : CellKind} {err : Error} (hc : CellKind.ofKind? k = some c)
    (h : m.content? c e = some (.error err)) : Unreadable m k e err := by
  cases e with
  | value v =>
    obtain ⟨a, -, ha⟩ := Option.map_eq_some_iff.1 h
    cases ha
  | immediate n =>
    obtain ⟨a, -, ha⟩ := Option.map_eq_some_iff.1 h
    cases ha
  | reference r => exact ⟨r, c, rfl, hc, Option.some.inj h⟩

/-- Take any machine with an entry on its stack, and any kind of values. Popping at that kind takes
the entry and gives a value of the kind; or it takes the entry and fails, and the machine is lost;
or the entry is a reference that cannot be read, and then the machine has lost the entry and is
usable. -/
theorem pop_outcome (hs : m.stack = e :: rest) (hk : k ≠ .void) :
    (∃ v, popValue k m = (.ok v, m.withStack rest) ∧ v.kind = k) ∨
    (∃ err, popValue k m = (.error err, (m.withStack rest).poisonWith err) ∧
      Lost ((m.withStack rest).poisonWith err)) ∨
    ∃ err, popValue k m = (.error err, m.withStack rest) ∧ Unreadable m k e err ∧
      (m.withStack rest).isPoisoned = false := by
  obtain ⟨c, hc, rfl⟩ := CellKind.exists_of_ne_void hk
  rw [popValue_eq_map hc]
  rcases hp : pop c m with ⟨r, m'⟩
  rcases pop_eq hp with ⟨hnil, -, -⟩ | ⟨e', rest', hs', hcase⟩
  · rw [hs] at hnil
    cases hnil
  obtain ⟨rfl, rfl⟩ := List.cons.inj (hs.symm.trans hs')
  rcases hcase with ⟨hcontent, rfl⟩ | ⟨err, -, rfl, rfl⟩
  · rcases r with err | a
    · by_cases hpoison : m.poison = none
      · exact .inr (.inr ⟨err, rfl, unreadable_of_content? hc hcontent,
          isPoisoned_eq_false.2 hpoison⟩)
      · -- the machine was unusable before, so it makes no difference that it is not made so now
        have hsame := poisonWith_of_poison (m := m.withStack rest) hpoison err
        refine .inr (.inl ⟨err, ?_, lost_of_poison (isPoisoned_poisonWith _ err)⟩)
        rw [hsame]
        rfl
    · exact .inl ⟨c.toValue a, rfl, CellKind.kind_toValue c a⟩
  · exact .inr (.inl ⟨err, rfl, lost_of_poison (isPoisoned_poisonWith _ err)⟩)

/-- A number that the host has pushed is popped as a number; popped as a string, it costs the
machine. -/
theorem pop_outcome_of_number :
    let m : Machine Unit := (Machine.new (.ofParts 50 [] #[]) .default).push (.int 5)
    (∃ v, popValue .int m = (.ok v, m.withStack []) ∧ v.kind = .int) ∧
      ∃ err, popValue .string m = (.error err, (m.withStack []).poisonWith err) ∧
        Lost ((m.withStack []).poisonWith err) := by
  intro m
  have hs : m.stack = .value (.int 5) :: [] := rfl
  constructor
  · rcases pop_outcome hs (k := .int) nofun with h | ⟨err, h, -⟩ | ⟨err, h, -⟩
    · exact h
    · cases (Prod.mk.inj h).1
    · cases (Prod.mk.inj h).1
  · rcases pop_outcome hs (k := .string) nofun with ⟨v, h, -⟩ | h | ⟨err, -, ⟨r, c, he, -⟩, -⟩
    · cases (Prod.mk.inj h).1
    · exact h
    · cases he

end Machine

/-! ## A reference that is popped at a wrong kind -/

/-- A script with a string, an external function, and a body that pushes a reference to the string
and calls the function. -/
def Script.lending : Script :=
  .ofParts 50
    [{ Symbol.blank "" 0 .string none with count := 0, data := .strings [] },
      { Symbol.blank "" 1 .func none with flags := .union .external .const, count := 0 },
      .body "" 2 0]
    #[65, 0, 0, 0, 0, 62, 1, 0, 0, 0, 60]

/-- The script as it is compiled. -/
def Script.lendingBytes : List UInt8 :=
  50 :: [3, 0, 0, 0, 0, 0, 0x3000, 0, 0, 0, 0, 0, 0xFFFFFFFF, 0, 0, 0x95000, 0, 0, 0, 0, 0, 0,
    0xFFFFFFFF, 0, 0, 0x15000, 0, 0, 0, 0, 0, 0, 0xFFFFFFFF, 11].flatMap LittleEndian.encode ++
    [65, 0, 0, 0, 0, 62, 1, 0, 0, 0, 60]

/-- Host code that pops a number and goes on whether there was one or not. It keeps the error. -/
def Routine.careless : Routine (Option Error) :=
  .ask (.pop .int) fun r =>
    .setHost (match r with | .ok _ => none | .error e => some e) (.finish (.ok .void))

/-- A machine that runs the script, with the function bound to that code. -/
def World.lending : World (Option Error) :=
  let x : Binding (Option Error) := ⟨fun _ => .careless, [], .void⟩
  ⟨none, { Machine.new .lending .default with
    registrations.externals := Bindings.empty.insert 1 x }⟩

namespace Machine

set_option maxRecDepth 1000 in
/-- Inside the script, a callback pops a reference to a string as a number and drops the error. The
machine is not unusable, and the script goes on to the end without the entry. -/
theorem not_lost_of_failed_pop :
    Reachable World.lending.machine ∧ World.lending.machine.poison = none ∧
      ∃ w', RunM.call (.nested 1 3) (.index 2) [] none .lending = some (.ok .void, w') ∧
        w'.host = some (.symbolTypeMismatch "" .int (some .string)) ∧
        w'.machine.poison = none ∧ w'.machine.stack = [] := by
  have hload : Script.load .windows1252 Script.lendingBytes = .ok .lending := rfl
  have hregister : (Machine.new Script.lending Config.default).registerExternal (.index 1)
      ⟨fun _ => .careless, [], .void⟩ = .ok World.lending.machine := rfl
  refine ⟨⟨_, _, _, _, hload, .single (.edit (.registerExternal hregister))⟩, rfl, ?_⟩
  have hrun : ∃ p ∈ RunM.call (.nested 1 3) (.index 2) [] none .lending,
      p.1 = .ok .void ∧ p.2.host = some (.symbolTypeMismatch "" .int (some .string)) ∧
        p.2.machine.poison = none ∧ p.2.machine.stack = [] := by decide +kernel
  obtain ⟨⟨_, w'⟩, h, rfl, hw⟩ := hrun
  exact ⟨w', h, hw⟩

end Machine

end ScriptMachine
