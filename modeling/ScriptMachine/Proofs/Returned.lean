import Mathlib.Data.List.DropRight
import ScriptMachine.Proofs.Access
import ScriptMachine.Proofs.Activation
import ScriptMachine.Proofs.Registry

/-!
# Results that wait on the stack

A function of the script leaves its result on the stack, on top of the entries of its caller. As
long as more entries lie there than those of the caller, the result does too, whatever runs in the
meantime. So a value or a literal is popped as what it was when the function returned. A reference
is read when it is popped: a function that returns a variable returns the variable, and not what the
variable held at the time.

* `Machine.Change.rtake_stack`, `Machine.Above.rtake_stack` – the deepest entries stay.
* `Memory.read_congr` – what a reference leads to depends on one storage.
* `Returned` – a function that has left its result.
* `popped_of_returned` – what is popped for results.
* `not_returned_by_value` – a function that returns its own parameter.
-/

namespace ScriptMachine

open Machine

variable {σ : Type}

/-! ## Entries that stay -/

/-- An entry on top does not change which entries lie deepest. -/
theorem rtake_cons_of_le {n : Nat} {s : List Entry} (h : n ≤ s.length) (e : Entry) :
    (e :: s).rtake n = s.rtake n := by
  have hd : (e :: s).length - n = s.length - n + 1 := by
    rw [List.length_cons]
    omega
  rw [List.rtake, List.rtake, hd, List.drop_succ_cons]

/-- All entries are as many as there are. -/
theorem rtake_length (s : List Entry) : s.rtake s.length = s := by
  rw [List.rtake, Nat.sub_self, List.drop_zero]

namespace Machine

variable {m m' : Machine σ} {n : Nat}

/-- An edit pushes an entry, drops one, empties the stack or leaves it alone. -/
theorem Edit.stack_cases (h : Edit m m') :
    m'.stack = m.stack ∨ (∃ e, m'.stack = e :: m.stack) ∨ (∃ e, m.stack = e :: m'.stack) ∨
      m'.stack = [] := by
  cases h with
  | push e => exact .inr (.inl ⟨e, rfl⟩)
  | drop hs => exact .inr (.inr (.inl ⟨_, hs⟩))
  | fail hp e =>
    rw [poisonWith, hp]
    exact .inr (.inr (.inr rfl))
  | registerExternal h =>
    obtain ⟨f, -, -, log, rfl, -⟩ := registerExternal_eq_ok h
    exact .inl rfl
  | overrideFunction h =>
    obtain ⟨f, -, -, rfl⟩ := overrideFunction_eq_ok h
    exact .inl rfl
  | reportUnregistered f =>
    rw [Machine.reportUnregistered]
    split <;> exact .inl rfl
  | _ => exact .inl rfl

/-- So does any other change. -/
theorem Change.stack_cases (h : Change m m') :
    m'.stack = m.stack ∨ (∃ e, m'.stack = e :: m.stack) ∨ (∃ e, m.stack = e :: m'.stack) ∨
      m'.stack = [] := by
  rcases h.edit_or_sameData with h | h
  · exact h.stack_cases
  · exact .inl h.stack

/-- A change leaves the deepest entries alone if there are as many afterwards. -/
theorem Change.rtake_stack (h : Change m m') (hm : n ≤ m.stack.length)
    (hm' : n ≤ m'.stack.length) : m'.stack.rtake n = m.stack.rtake n := by
  rcases h.stack_cases with hs | ⟨e, hs⟩ | ⟨e, hs⟩ | hs
  · rw [hs]
  · rw [hs, rtake_cons_of_le hm]
  · rw [hs, rtake_cons_of_le hm']
  · rw [hs] at hm'
    obtain rfl : n = 0 := Nat.le_zero.1 hm'
    rw [List.rtake_zero, List.rtake_zero]

/-- Whether one machine becomes another while more than `n` entries lie on the stack, if so many do
at first. -/
def Above (n : Nat) : Machine σ → Machine σ → Prop := Within fun a => n < a.stack.length

theorem Above.refl (n : Nat) (m : Machine σ) : Above n m m := Within.refl m

theorem Above.trans {a b c : Machine σ} (h : Above n a b) (h' : Above n b c) : Above n a c :=
  Within.trans h h'

theorem Above.of_change (h : Change m m') (hm' : n < m'.stack.length) : Above n m m' :=
  Within.of_change h fun _ => hm'

theorem Above.evolves (h : Above n m m') (hm : n < m.stack.length) : Evolves m m' :=
  Relation.ReflTransGen.mono (fun _ _ h => h.1) _ _ (h hm)

/-- The deepest entries stay, whatever happens above them. -/
theorem Above.rtake_stack (h : Above n m m') (hm : n < m.stack.length) :
    m'.stack.rtake (n + 1) = m.stack.rtake (n + 1) := by
  have hlast : m'.stack.rtake (n + 1) = m.stack.rtake (n + 1) ∧ n < m'.stack.length := by
    have hchanges := h hm
    clear h
    -- on the changes: more than `n` entries lie there before and after each of them
    induction hchanges with
    | refl => exact ⟨rfl, hm⟩
    | tail _ hc ih => exact ⟨(hc.1.rtake_stack ih.2 hc.2).trans ih.1, hc.2⟩
  exact hlast.1

/-- A stack that is as deep as at first is the same. -/
theorem Above.stack_eq {e : Entry} {below : List Entry} (h : Above below.length m m')
    (hs : m.stack = e :: below) (hlen : m'.stack.length = below.length + 1) :
    m'.stack = e :: below := by
  have hm : m.stack.length = below.length + 1 := congrArg List.length hs
  have hstay := h.rtake_stack (by omega)
  rwa [← hlen, rtake_length, hlen, ← hm, rtake_length, hs] at hstay

/-! ## What references lead to -/

end Machine

namespace Memory

variable {m m' : Memory} {p : Script} {flags : ExecutionFlags} {r : Reference}

/-- Whether a reference leads to the same storage in two memories, or to none in either. -/
def SameStorage (p : Script) (flags : ExecutionFlags) (r : Reference) (m m' : Memory) : Prop :=
  ∀ s, p.find (.index r.symbol) = .ok s → m'.lookup p flags s r = m.lookup p flags s r

/-- What is read through a reference depends on its storage only. -/
theorem read_congr (h : SameStorage p flags r m m') (k : CellKind) :
    m'.read p flags k r = m.read p flags k r := by
  rcases hs : p.find (.index r.symbol) with e | s
  · rw [read, read, hs]
    rfl
  · rw [read_eq_lookup hs, read_eq_lookup hs, h s hs]

end Memory

namespace Machine

variable {m m' : Machine σ} {e : Entry} {below below' : List Entry} {k : CellKind}

/-! ## What is popped -/

/-- What is popped is what the top entry serves as, or an error if it does not serve. -/
theorem fst_pop (hs : m.stack = e :: below) :
    (pop k m).1 =
      (m.content? k e).getD (.error (.stackTypeMismatch (.value k.kind) e.kind)) := by
  have hrest : ({ m with stack := below } : Machine σ).content? k e = m.content? k e := by
    cases e <;> rfl
  unfold pop
  rw [hs]
  dsimp only
  rw [hrest]
  rcases m.content? k e with _ | r <;> rfl

/-- So two machines on which it serves alike pop the same. -/
theorem pop_congr (hs : m.stack = e :: below) (hs' : m'.stack = e :: below')
    (hc : m'.content? k e = m.content? k e) : (pop k m').1 = (pop k m).1 := by
  rw [fst_pop hs, fst_pop hs', hc]

/-- Whether an entry that was on top of the stack of a machine `m` is popped off another one as
what it was in `m`: always if it is a value or a literal, and if it is a reference, provided that
its storage is the same. What a reference leads to is read only now. -/
structure PopsAs (k : CellKind) (e : Entry) (m m' : Machine σ) : Prop where
  same : (∀ r, e ≠ .reference r) → (pop k m').1 = (pop k m).1
  read : ∀ r, e = .reference r → (pop k m').1 = m'.read k r
  unchanged : ∀ r, e = .reference r →
    Memory.SameStorage m.script m.config.flags r m.memory m'.memory → (pop k m').1 = (pop k m).1

theorem popsAs_of_eq (hscript : m'.script = m.script) (hconfig : m'.config = m.config)
    (hs : m.stack = e :: below) (hs' : m'.stack = e :: below') : PopsAs k e m m' where
  same he := by
    refine pop_congr hs hs' ?_
    cases e with
    | reference r => exact absurd rfl (he r)
    | value | immediate => rfl
  read := by
    rintro r rfl
    exact fst_pop hs'
  unchanged := by
    rintro r rfl hstorage
    refine pop_congr hs hs' (congrArg some ?_)
    rw [Machine.read, Machine.read, hscript, hconfig]
    exact Memory.read_congr hstorage k

end Machine

/-! ## Functions that return -/

/-- Whether a function that an instruction has called returns with an entry on top of those of its
caller: in the world `w` it is about to return, and in the world `v` it has returned. -/
structure Returned (b : Budget σ) (e : Entry) (below : List Entry) (w v : World σ) : Prop where
  instruction : ∃ i, w.machine.script.decode w.machine.pc = .ok i ∧ i.opcode = .rsr
  stack : w.machine.stack = e :: below
  step : RunM.step b w = some (.ok false, v)

variable {b : Budget σ} {w v : World σ} {e : Entry} {below : List Entry}

/-- Returning moves control and does nothing else. -/
theorem Returned.moved (h : Returned b e below w v) :
    v.machine.script = w.machine.script ∧ v.machine.config = w.machine.config ∧
      v.machine.stack = e :: below := by
  obtain ⟨i, hi, hrsr⟩ := h.instruction
  obtain ⟨frames, pc, context, hl⟩ := (w.machine.fetched i).leave_eq_moved
  have hv := (RunM.step_of_rsr hi hrsr).symm.trans h.step
  obtain ⟨-, rfl⟩ := Prod.mk.inj (Option.some.inj hv)
  dsimp only
  rw [hl]
  exact ⟨rfl, rfl, h.stack⟩

/-- Whatever has come about since a function returned, without its result being taken, the result
lies where it was. -/
theorem Returned.popsAs {m : Machine σ} (h : Returned b e below w v)
    (hm : Above below.length v.machine m) (hlen : m.stack.length = below.length + 1) :
    m.stack = e :: below ∧ ∀ k, PopsAs k e w.machine m := by
  obtain ⟨hscript, hconfig, hstack⟩ := h.moved
  have hdeep : below.length < v.machine.stack.length := by
    rw [hstack]
    exact Nat.lt_succ_self _
  have hev := hm.evolves hdeep
  have hs := hm.stack_eq hstack hlen
  exact ⟨hs, fun k => popsAs_of_eq (hev.script_eq.trans hscript) (hev.config_eq.trans hconfig)
    h.stack hs⟩

/-- When a function of the script returns, its result lies on the entries of its caller. Let
anything run then, scripts and callbacks, that does not take the result. The entry is still the
same. If it is a value or a literal, what is popped at any kind is what would have been popped when
the function returned. If it is a reference, what is popped is what the reference leads to by then,
so it is the same if the storage is. Of two results that lie on the stack, each is popped as what
its own function has returned; if both are the same reference, the same is popped for both. -/
theorem popped_of_returned (h : Returned b e below w v) :
    (∀ m, Above below.length v.machine m → m.stack.length = below.length + 1 →
      m.stack = e :: below ∧ ∀ k, PopsAs k e w.machine m) ∧
    ∀ (w' v' : World σ) (m : Machine σ) (e' : Entry), Above below.length v.machine w'.machine →
      Returned b e' (e :: below) w' v' → Above (below.length + 1) v'.machine m →
      m.stack.length = below.length + 2 →
      m.stack = e' :: e :: below ∧ (∀ k, PopsAs k e' w'.machine m) ∧
        ∀ k c n, pop k m = (.ok c, n) →
          (∀ k', PopsAs k' e w.machine n) ∧ (e' = e → (pop k n).1 = .ok c) := by
  refine ⟨fun m hm hlen => h.popsAs hm hlen, ?_⟩
  intro w' v' m e' hw' h' hm hlen
  obtain ⟨hs, hpops⟩ := h'.popsAs hm hlen
  refine ⟨hs, hpops, ?_⟩
  intro k c n hpop
  obtain ⟨e₁, rest, hs₁, -, rfl⟩ := pop_ok hpop
  obtain ⟨rfl, rfl⟩ := List.cons.inj (hs.symm.trans hs₁)
  refine ⟨fun k' => ?_, ?_⟩
  · -- the script and the configuration are those of the first return
    obtain ⟨hscript, hconfig, hstack⟩ := h.moved
    obtain ⟨hscript', hconfig', hstack'⟩ := h'.moved
    have hev := hw'.evolves (by rw [hstack]; exact Nat.lt_succ_self _)
    have hev' := hm.evolves (by rw [hstack']; exact Nat.lt_succ_self _)
    refine popsAs_of_eq ?_ ?_ h.stack rfl
    · exact hev'.script_eq.trans (hscript'.trans (hev.script_eq.trans hscript))
    · exact hev'.config_eq.trans (hconfig'.trans (hev.config_eq.trans hconfig))
  · rintro rfl
    have hsame : (pop k (m.withStack (e' :: below))).1 = (pop k m).1 :=
      pop_congr hs rfl (by cases e' <;> rfl)
    rw [hsame, hpop]

/-! ## Small scripts -/

/-- A machine on which a function is about to return a number to a function that adds a literal to
it: the first body ends at once, and the second one is about to push the literal and to end. -/
def World.adding : World Unit :=
  let w := World.fresh [] #[60, 64, 2, 0, 0, 0, 60]
  { w with machine := { w.machine with
    stack := [.value (.int 1)]
    frames := [⟨none, 1, none, false⟩, ⟨none, 7, none, false⟩] } }

/-- Two results, a number and a literal, are popped as what they are. -/
theorem popped_of_returned_of_adding :
    ∃ v w' v' : World Unit, Returned (.nested 1 1) (.value (.int 1)) [] .adding v ∧
      Returned (.nested 1 1) (.immediate 2) [.value (.int 1)] w' v' ∧
      ∃ n, pop .int v'.machine = (.ok 2, n) ∧ (pop .int n).1 = .ok 1 := by
  let i : Instruction := ⟨1, .pushi, .immediate 2⟩
  -- the first body ends, the literal is fetched and pushed, and the second body ends
  obtain ⟨v, w', v', hv, hw', hv', hmachine, hdecode, hpoison, hstack⟩ : ∃ v w' v' : World Unit,
      Returned (.nested 1 1) (.value (.int 1)) [] .adding v ∧
        RunM.step (.nested 1 1) v = some (.ok false, w') ∧
        Returned (.nested 1 1) (.immediate 2) [.value (.int 1)] w' v' ∧
        w'.machine = (v.machine.fetched i).pushEntry (.immediate 2) ∧
        v.machine.script.decode v.machine.pc = .ok i ∧ v.machine.poison = none ∧
        v.machine.stack = [.value (.int 1)] :=
    ⟨_, _, _, ⟨⟨_, rfl, rfl⟩, rfl, rfl⟩, rfl, ⟨⟨_, rfl, rfl⟩, rfl, rfl⟩, rfl, rfl, rfl, rfl⟩
  have habove : Above 0 v.machine w'.machine := by
    have hfetched : (v.machine.fetched i).stack = [.value (.int 1)] := hstack
    rw [hmachine]
    refine .trans (.of_change (.fetch hpoison hdecode) ?_) (.of_change (.edit (.push _ _)) ?_)
    · rw [hfetched]
      exact Nat.one_pos
    · exact Nat.succ_pos _
  obtain ⟨-, -, hlast⟩ := hv'.moved
  obtain ⟨-, hsecond, hfirst⟩ := (popped_of_returned hv).2 w' v' v'.machine (.immediate 2) habove
    hv' (.refl 1 v'.machine) (congrArg List.length hlast)
  have hpop : pop .int v'.machine = (.ok 2, (pop .int v'.machine).2) := by
    refine Prod.ext ?_ rfl
    rw [(hsecond .int).same nofun, fst_pop hv'.stack]
    rfl
  refine ⟨v, w', v', hv, hv', _, hpop, ?_⟩
  rw [((hfirst .int 2 _ hpop).1 .int).same nofun, fst_pop hv.stack]
  rfl

/-- A function that returns its own parameter, and one that adds two calls of it. -/
def Script.doubling : Script :=
  .ofParts 50
    [{ Symbol.body "" 0 0 with
        flags := .union .returns .const, extra := DataType.int.code, count := 1 },
      { Symbol.blank "" 1 .int none with count := 0, data := .ints [] },
      { Symbol.body "" 2 12 with flags := .union .returns .const, extra := DataType.int.code }]
    #[65, 1, 0, 0, 0, 9, 65, 1, 0, 0, 0, 60,
      64, 1, 0, 0, 0, 61, 0, 0, 0, 0, 64, 2, 0, 0, 0, 61, 0, 0, 0, 0, 0, 60]

/-- The script as it is compiled. -/
def Script.doublingBytes : List UInt8 :=
  50 :: [3, 0, 0, 0, 0, 2, 0x35001, 0, 0, 0, 0, 0, 0, 0xFFFFFFFF, 0, 0, 0x2000, 0, 0, 0, 0, 0,
    0xFFFFFFFF, 0, 2, 0x35000, 0, 0, 0, 0, 0, 12, 0xFFFFFFFF, 34].flatMap LittleEndian.encode ++
    [65, 1, 0, 0, 0, 9, 65, 1, 0, 0, 0, 60,
      64, 1, 0, 0, 0, 61, 0, 0, 0, 0, 64, 2, 0, 0, 0, 61, 0, 0, 0, 0, 0, 60]

set_option maxRecDepth 1000 in
/-- The function returns one for one and two for two, but the sum of both calls is four: each result
is the parameter, which the second call has set. -/
theorem not_returned_by_value :
    let w : World Unit := ⟨(), .new .doubling .default⟩
    Reachable w.machine ∧
      (∃ w', RunM.call (.nested 1 4) (.index 0) [.int 1] (some .int) w = some (.ok (.int 1), w')) ∧
      (∃ w', RunM.call (.nested 1 4) (.index 0) [.int 2] (some .int) w = some (.ok (.int 2), w')) ∧
      ∃ w', RunM.call (.nested 1 14) (.index 2) [] (some .int) w = some (.ok (.int 4), w') := by
  intro w
  have hload : Script.load .windows1252 Script.doublingBytes = .ok .doubling := rfl
  have hruns : ∃ p ∈ RunM.call (.nested 1 4) (.index 0) [.int 1] (some .int) w,
      ∃ q ∈ RunM.call (.nested 1 4) (.index 0) [.int 2] (some .int) w,
        ∃ r ∈ RunM.call (.nested 1 14) (.index 2) [] (some .int) w,
          p.1 = .ok (.int 1) ∧ q.1 = .ok (.int 2) ∧ r.1 = .ok (.int 4) := by decide +kernel
  obtain ⟨⟨_, w₁⟩, h₁, ⟨_, w₂⟩, h₂, ⟨_, w₃⟩, h₃, rfl, rfl, rfl⟩ := hruns
  exact ⟨⟨_, _, _, _, hload, .refl⟩, ⟨w₁, h₁⟩, ⟨w₂, h₂⟩, ⟨w₃, h₃⟩⟩

end ScriptMachine
