import Mathlib.Algebra.Ring.Int.Defs
import Mathlib.Data.List.DropRight
import Mathlib.Data.List.Forall2
import ScriptMachine.Proofs.Invariant
import ScriptMachine.Proofs.Registry
import ScriptMachine.Proofs.Trail

/-!
# The depth of the evaluation stack

Each instruction replaces a number of entries at the top of the stack by others, and both numbers
can be read off the script: they are fixed by the opcode or, where a callback runs, by the declared
types of its function. So the depth after a sequence of instructions is the sum of what each of them
adds, and what lies deeper than the stack ever got is left alone.

* `Replaces` – a number of entries at the top gives way to another one.
* `Machine.takes`, `Machine.gives` – what an instruction takes and gives.
* `Budget.calm` – runs in which no callback changes the stack.
* `Trail.stack_length`, `Trail.rtake_stack` – the stack after a sequence of instructions.
-/

namespace ScriptMachine

open Machine

variable {σ : Type}

/-! ## Entries that give way to others -/

/-- Whether one stack becomes another by the `takes` entries at its top giving way to `gives`
others. -/
def Replaces (takes gives : Nat) (s s' : List Entry) : Prop :=
  ∃ taken given below, s = taken ++ below ∧ s' = given ++ below ∧ taken.length = takes ∧
    given.length = gives

namespace Replaces

variable {takes gives : Nat} {s s' : List Entry}

/-- What is taken and what is given decide the depth. -/
theorem length_eq (h : Replaces takes gives s s') :
    (s'.length : Int) = s.length + (gives - takes) := by
  obtain ⟨taken, given, below, rfl, rfl, rfl, rfl⟩ := h
  rw [List.length_append, List.length_append]
  omega

/-- What is taken is there. -/
theorem takes_le (h : Replaces takes gives s s') : takes ≤ s.length := by
  obtain ⟨taken, given, below, rfl, rfl, rfl, rfl⟩ := h
  rw [List.length_append]
  exact Nat.le_add_right _ _

/-- Entries below those that are taken stay. -/
theorem rtake_eq (h : Replaces takes gives s s') {n : Nat} (hn : n + takes ≤ s.length) :
    s'.rtake n = s.rtake n := by
  obtain ⟨taken, given, below, rfl, rfl, rfl, rfl⟩ := h
  rw [List.length_append] at hn
  have hdrop : ∀ t : List Entry, (t ++ below).rtake n = below.rtake n := by
    intro t
    have hd : (t ++ below).length - n = t.length + (below.length - n) := by
      rw [List.length_append]
      omega
    rw [List.rtake, List.rtake, hd, List.drop_length_add_append]
  rw [hdrop, hdrop]

end Replaces

/-! ## Declared types -/

/-- Whether a value of a type is one entry on the stack. -/
def DataType.isData : DataType → Bool
  | int | func | float | string | inst => true
  | void | cls | proto => false

/-- Whether a function takes and returns values that are entries on the stack, or returns none. -/
structure Script.PassesData (p : Script) (f : Symbol) : Prop where
  params : ∀ s ∈ p.parametersOf f, s.type.isData = true
  result : ∀ t, f.returnType? = some t → t = .void ∨ t.isData = true

instance (p : Script) (f : Symbol) : Decidable (p.PassesData f) :=
  decidable_of_iff
    ((∀ s ∈ p.parametersOf f, s.type.isData = true) ∧
      ∀ t ∈ f.returnType?, t = .void ∨ t.isData = true)
    ⟨fun h => ⟨h.1, h.2⟩, fun h => ⟨h.params, h.result⟩⟩

/-- The number of values a function is declared to return. -/
def Symbol.results (f : Symbol) : Nat :=
  match f.returnType? with
  | none | some .void => 0
  | some _ => 1

/-- The kinds of declared parameters are those of their types, one by one. -/
theorem Script.forall₂_kind_of_mapM {f : Symbol} {l : List Symbol} :
    ∀ {ks}, l.mapM (parameterKind f) = .ok ks →
      List.Forall₂ (fun s k => s.type.kind? = some k) l ks := by
  induction l with
  | nil =>
    intro ks h
    rw [List.mapM_nil] at h
    obtain rfl := Except.ok.inj h
    exact .nil
  | cons s l ih =>
    intro ks h
    rw [List.mapM_cons] at h
    obtain ⟨k, hk, h⟩ := Except.bind_eq_ok.1 h
    obtain ⟨ks', hl, h⟩ := Except.bind_eq_ok.1 h
    obtain rfl := Except.ok.inj h
    refine .cons ?_ (ih hl)
    rw [parameterKind, Symbol.kind?] at hk
    split at hk
    · next hs => rw [hs, Except.ok.inj hk]
    · cases hk

/-- A kind among those of declared parameters is that of a type among theirs. -/
theorem Script.exists_type_of_kind {l : List Symbol} {ks : List Kind} {k : Kind}
    (h : List.Forall₂ (fun s k => s.type.kind? = some k) l ks) (hk : k ∈ ks) :
    ∃ s ∈ l, s.type.kind? = some k := by
  induction h with
  | nil => cases hk
  | @cons s j l ks hs _ ih =>
    rcases List.mem_cons.1 hk with rfl | hk
    · exact ⟨s, List.mem_cons_self, hs⟩
    · obtain ⟨t, ht, htk⟩ := ih hk
      exact ⟨t, List.mem_cons_of_mem _ ht, htk⟩

/-- The values of a type that is data have a kind of their own. -/
theorem DataType.exists_kind {t : DataType} (ht : t.isData = true) :
    ∃ k, t.kind? = some k ∧ k ≠ .void := by
  cases t with
  | int | func => exact ⟨.int, rfl, nofun⟩
  | float => exact ⟨.float, rfl, nofun⟩
  | string => exact ⟨.string, rfl, nofun⟩
  | inst => exact ⟨.inst, rfl, nofun⟩
  | void | cls | proto => cases ht

/-- A function with a signature returns a value unless its result is declared void. -/
theorem Script.results_eq {f : Symbol} {k : Kind} (h : resultKind f = .ok k) :
    f.results = if k = .void then 0 else 1 := by
  rw [resultKind] at h
  rw [Symbol.results]
  rcases hr : f.returnType? with _ | t
  · rw [hr] at h
    obtain rfl := Except.ok.inj h
    rfl
  · rw [hr] at h
    cases t <;> cases h <;> rfl

namespace Script.PassesData

variable {p : Script} {f : Symbol}

/-- No parameter that is data is declared void. -/
theorem count_void {s : Signature} (hd : p.PassesData f) (hs : p.declaredSignature f = .ok s) :
    s.params.count .void = 0 := by
  have hkinds := forall₂_kind_of_mapM (declaredSignature_eq_ok hs).1
  refine List.count_eq_zero.2 fun hvoid => ?_
  obtain ⟨t, ht, hk⟩ := exists_type_of_kind hkinds hvoid
  obtain ⟨k, hk', hne⟩ := DataType.exists_kind (hd.params t ht)
  exact hne (Option.some.inj (hk'.symm.trans hk))

/-- A result that is data, or none, has a kind. -/
theorem exists_resultKind (hd : p.PassesData f) : ∃ k, resultKind f = .ok k := by
  rcases hr : f.returnType? with _ | t
  · exact ⟨.void, by rw [resultKind, hr]⟩
  rcases hd.result t hr with rfl | hdata
  · exact ⟨.void, by rw [resultKind, hr]; rfl⟩
  · obtain ⟨k, hk, -⟩ := DataType.exists_kind hdata
    exact ⟨k, by simp only [resultKind, hr, hk]⟩

end Script.PassesData

/-! ## Operations on the stack -/

namespace Machine

variable {m m' : Machine σ}

/-- A value of a kind of its own is one entry. -/
theorem stack_of_popValue {k : Kind} {v : Value} (hk : k ≠ .void)
    (h : popValue k m = (.ok v, m')) : ∃ e, m.stack = e :: m'.stack := by
  rcases hc : CellKind.ofKind? k with _ | c
  · cases k <;> first | exact absurd rfl hk | cases hc
  · rw [popValue, hc] at h
    obtain ⟨a, n, hp, hv⟩ := MachineM.bind_eq_ok.1 h
    obtain ⟨-, rfl⟩ := MachineM.eq_of_pure hv
    obtain ⟨e, rest, hs, -, rfl⟩ := pop_ok hp
    exact ⟨e, hs⟩

/-- No value takes no entry. -/
theorem stack_of_popValue_void {v : Value} (h : popValue .void m = (.ok v, m')) :
    m.stack = m'.stack := by
  have h : (pure Value.void : MachineM σ Value) m = (.ok v, m') := h
  obtain ⟨-, rfl⟩ := MachineM.eq_of_pure h
  rfl

/-- Arguments that are popped are one entry each, apart from those that are no values. -/
theorem stack_of_popOnto {ks : List Kind} :
    ∀ {vs rs : List Value} {m : Machine σ}, popOnto vs ks m = (.ok rs, m') →
      ∃ taken, m.stack = taken ++ m'.stack ∧ taken.length + ks.count .void = ks.length := by
  induction ks with
  | nil =>
    intro vs rs m h
    obtain ⟨-, rfl⟩ := MachineM.eq_of_pure h
    exact ⟨[], rfl, rfl⟩
  | cons k ks ih =>
    intro vs rs m h
    obtain ⟨v, n, hv, h⟩ := MachineM.bind_eq_ok.1 h
    obtain ⟨taken, ht, hl⟩ := ih h
    by_cases hk : k = .void
    · subst hk
      refine ⟨taken, (stack_of_popValue_void hv).trans ht, ?_⟩
      rw [List.count_cons_self, List.length_cons]
      omega
    · obtain ⟨e, he⟩ := stack_of_popValue hk hv
      refine ⟨e :: taken, by rw [he, ht]; rfl, ?_⟩
      rw [List.count_cons_of_ne hk, List.length_cons, List.length_cons]
      omega

theorem stack_of_dropEntries {n : Nat} :
    ∀ {m : Machine σ} {u : Unit}, dropEntries n m = (.ok u, m') →
      ∃ taken, m.stack = taken ++ m'.stack ∧ taken.length = n := by
  induction n with
  | zero =>
    intro m u h
    obtain ⟨-, rfl⟩ := MachineM.eq_of_pure h
    exact ⟨[], rfl, rfl⟩
  | succ n ih =>
    intro m u h
    obtain ⟨e, v, he, h⟩ := MachineM.bind_eq_ok.1 h
    obtain ⟨taken, ht, hl⟩ := ih h
    unfold popEntry at he
    split at he
    · cases he
    · next e rest hs =>
      obtain ⟨-, rfl⟩ := Prod.mk.inj he
      exact ⟨e :: taken, hs.trans (congrArg (e :: ·) ht), congrArg (· + 1) hl⟩

/-- A result is one entry, unless it is no value. -/
theorem stack_pushResult (m : Machine σ) (v : Value) :
    ∃ given, (m.pushResult v).stack = given ++ m.stack ∧
      given.length = if v.kind = .void then 0 else 1 := by
  rw [pushResult]
  cases v with
  | void => exact ⟨[], rfl, rfl⟩
  | int n => exact ⟨[_], rfl, rfl⟩
  | float x => exact ⟨[_], rfl, rfl⟩
  | string s => exact ⟨[_], rfl, rfl⟩
  | inst h => exact ⟨[_], rfl, rfl⟩

theorem stack_of_giveResult {f : Symbol} {x : Binding σ} {v : Value} {u : Unit}
    (h : giveResult f x v m = (.ok u, m')) :
    ∃ given, m'.stack = given ++ m.stack ∧
      given.length = if x.result = .void then 0 else 1 := by
  rcases giveResult_eq h with ⟨-, hk, -, rfl⟩ | ⟨e, he, -⟩
  · rw [← hk]
    exact stack_pushResult m v
  · cases he

/-- An external function without a callback takes as many entries as it declares parameters, and
gives one if it declares a result. -/
theorem replaces_balance {f : Symbol} {k : Kind} {u : Unit} (h : balance f m = (.ok u, m'))
    (hk : Script.resultKind f = .ok k) :
    Replaces (m.script.parametersOf f).length f.results m.stack m'.stack := by
  have hresults := Script.results_eq hk
  rw [balance, MachineM.get_bind] at h
  obtain ⟨u₁, n, hn, h⟩ := MachineM.bind_eq_ok.1 h
  obtain ⟨taken, ht, hl⟩ := stack_of_dropEntries hn
  rw [Script.resultKind] at hk
  rcases hr : f.returnType? with _ | t
  · rw [hr] at h
    obtain ⟨-, rfl⟩ := MachineM.eq_of_pure h
    exact ⟨taken, [], n.stack, ht, rfl, hl, by rw [Symbol.results, hr]; rfl⟩
  rcases htk : t.kind? with _ | k'
  · simp only [hr, htk, reduceCtorEq] at hk
  · simp only [hr, htk] at hk
    obtain rfl : k' = k := Except.ok.inj hk
    simp only [hr, Option.bind_some, htk] at h
    obtain ⟨-, rfl⟩ := Prod.mk.inj h
    obtain ⟨given, hg, hgl⟩ := stack_pushResult n (.default k')
    have hkind : (Value.default k').kind = k' := by cases k' <;> rfl
    exact ⟨taken, given, n.stack, ht, hg, hl, by rw [hgl, hkind, hresults]⟩

end Machine

/-! ## Callbacks that leave the stack alone -/

/-- The budget of runs in which callbacks leave the stack as they found it: a callback that changes
it has no outcome. -/
def Budget.calm (b : Budget σ) : Budget σ where
  callback x w := (b.callback x w).filter fun p => p.2.machine.stack = w.machine.stack
  steps := b.steps

variable {b : Budget σ} {w w' : World σ}

theorem Budget.calm_callback_eq_some {x : Routine σ} {o : Except HostFailure Value} :
    b.calm.callback x w = some (o, w') ↔
      b.callback x w = some (o, w') ∧ w'.machine.stack = w.machine.stack := by
  rw [calm, Option.filter_eq_some_iff, decide_eq_true_iff]

theorem Budget.calm_keeps {R : Machine σ → Machine σ → Prop} (h : b.callback.Keeps R) :
    b.calm.callback.Keeps R :=
  fun x w o w' hc => h x w o w' (calm_callback_eq_some.1 hc).1

theorem RunM.stack_of_calm_callback {f : Symbol} {x : Routine σ} {r : Except Error Value}
    (h : callback b.calm f x w = some (r, w')) : w'.machine.stack = w.machine.stack := by
  obtain ⟨o, ho, -⟩ := callback_eq_some.1 h
  exact (Budget.calm_callback_eq_some.1 ho).2

/-- A callback that is bound under the declared signature takes an entry for each parameter that is
not declared void, and gives one if the function declares a result. -/
theorem Dispatched.replaces {f : Symbol} {x : Binding σ} {p : Script} {r : Except Error Unit}
    (h : Dispatched b.calm f x w r w') (hr : r = .ok ())
    (hs : p.declaredSignature f = .ok x.signature) :
    Replaces ((p.parametersOf f).length - x.params.count .void) f.results w.machine.stack
      w'.machine.stack := by
  obtain ⟨hparams, hresult⟩ := Script.declaredSignature_eq_ok hs
  have hlen : x.params.length = (p.parametersOf f).length := 
    (Script.forall₂_kind_of_mapM hparams).length_eq.symm
  cases h with
  | arguments | failed => cases hr
  | @returned args m m' v u _ ht hc hg =>
    obtain ⟨args', n, ht, hrep⟩ := MachineM.bind_eq_ok.1 ht
    obtain ⟨taken, htaken, htl⟩ := stack_of_popOnto ht
    rw [List.count_reverse, List.length_reverse] at htl
    have hm : m.stack = n.stack := by
      obtain ⟨-, rfl⟩ := Prod.mk.inj hrep
      rfl
    rw [hr] at hg
    obtain ⟨given, hgiven, hgl⟩ := stack_of_giveResult hg
    have hu : u.machine.stack = n.stack := (RunM.stack_of_calm_callback hc).trans hm
    refine ⟨taken, given, n.stack, htaken, hgiven.trans (by rw [hu]), ?_, ?_⟩
    · omega
    · rw [hgl, Script.results_eq hresult]
      rfl

/-- An external function without a callback of its own takes an entry for each parameter, and gives
one if the function declares a result. -/
theorem Defaulted.replaces {f : Symbol} {k : Kind} {r : Except Error Unit}
    (h : Defaulted b.calm f w r w') (hr : r = .ok ()) (hk : Script.resultKind f = .ok k) :
    Replaces (w.machine.script.parametersOf f).length f.results w.machine.stack
      w'.machine.stack := by
  cases h with
  | entries | failed => cases hr
  | returned hb _ hc =>
    have hs := RunM.stack_of_calm_callback hc
    rw [hs]
    exact replaces_balance hb hk
  | @absent m hb =>
    have hs : (m.reportUnregistered f).stack = m.stack := by
      rw [reportUnregistered]
      split <;> rfl
    simp only [hs]
    exact replaces_balance hb hk

/-- Where parameters are data, a callback takes as many entries as there are parameters. -/
theorem Dispatched.replaces_of_passesData {f : Symbol} {x : Binding σ} {p : Script}
    {r : Except Error Unit} (h : Dispatched b.calm f x w r w') (hr : r = .ok ())
    (hs : p.declaredSignature f = .ok x.signature) (hd : p.PassesData f) :
    Replaces (p.parametersOf f).length f.results w.machine.stack w'.machine.stack := by
  have hrep := h.replaces hr hs
  rwa [show x.params.count .void = 0 from hd.count_void hs, Nat.sub_zero] at hrep

/-- A call of an external function takes an entry for each of its parameters and gives one for its
result, whether it has a callback of its own or not. -/
theorem RunM.replaces_of_callExternal {i : UInt32}
    (h : callExternal b.calm i w = some (.ok (), w')) (hm : Matches w.machine) :
    ∃ f, w.machine.script.symbolByIndex? i = some f ∧
      (w.machine.script.PassesData f →
        Replaces (w.machine.script.parametersOf f).length f.results w.machine.stack
          w'.machine.stack) := by
  rcases callExternal_eq_some h with ⟨e, he, -⟩ | ⟨f, hf, -, hx⟩
  · cases he
  refine ⟨f, hf, fun hd => ?_⟩
  rcases hx with ⟨x, hx, h⟩ | ⟨-, h⟩
  · -- the callback is bound under the signature of the function that is called
    obtain ⟨g, hg, -, hs⟩ := hm.external i x hx
    obtain rfl := Option.some.inj (hf.symm.trans hg)
    exact h.replaces_of_passesData rfl hs hd
  · obtain ⟨k, hk⟩ := hd.exists_resultKind
    exact h.replaces rfl hk

/-- So does a call of a function that a callback replaces. -/
theorem RunM.replaces_of_callOverride {i : UInt32}
    (h : callOverride b.calm i w = some (.ok (), w')) (hm : Matches w.machine) :
    ∃ f, w.machine.script.symbolByIndex? i = some f ∧
      (w.machine.script.PassesData f →
        Replaces (w.machine.script.parametersOf f).length f.results w.machine.stack
          w'.machine.stack) := by
  rcases callOverride_eq_some h with ⟨e, he, -⟩ | ⟨f, x, hf, hx, h⟩
  · cases he
  obtain ⟨g, hg, -, -, hs⟩ := hm.override i x hx
  obtain rfl := Option.some.inj (hf.symm.trans hg)
  exact ⟨f, hf, h.replaces_of_passesData rfl hs⟩

/-! ## Instructions -/

namespace Machine

/-- The function whose callback an instruction runs, if it runs one. -/
def callee? (m : Machine σ) (i : Instruction) : Option Symbol :=
  match i.opcode, i.operand with
  | .be, .symbol f => m.script.symbolByIndex? f
  | .bl, .address target => (m.overriding? target).bind m.script.symbolByIndex?
  | _, _ => none

/-- The number of entries an instruction takes off the stack: those of its opcode, or the declared
parameters of the function that it runs a callback of. -/
def takes (m : Machine σ) (i : Instruction) : Nat :=
  match m.callee? i with
  | some f => (m.script.parametersOf f).length
  | none => i.opcode.effect.takes

/-- The number of entries an instruction leaves on the stack. -/
def gives (m : Machine σ) (i : Instruction) : Nat :=
  match m.callee? i with
  | some f => f.results
  | none => i.opcode.effect.gives

/-- Only the two opcodes for calls may run callbacks. -/
theorem callee?_eq_none {m : Machine σ} {i : Instruction} (h : i.opcode.effect.isCall = false) :
    m.callee? i = none := by
  rw [callee?]
  split
  · next hbe _ =>
    rw [hbe] at h
    cases h
  · next hbl _ =>
    rw [hbl] at h
    cases h
  · rfl

theorem callee?_of_be {m : Machine σ} {i : Instruction} {f : UInt32} (hbe : i.opcode = .be)
    (hop : i.operand = .symbol f) : m.callee? i = m.script.symbolByIndex? f := by
  rw [callee?, hbe, hop]

theorem callee?_of_bl {m : Machine σ} {i : Instruction} {target : UInt32} (hbl : i.opcode = .bl)
    (hop : i.operand = .address target) :
    m.callee? i = (m.overriding? target).bind m.script.symbolByIndex? := by
  rw [callee?, hbl, hop]

/-- What the instruction at `pc` adds to the depth of the stack. -/
def depthChange (m : Machine σ) : Int :=
  match m.script.decode m.pc with
  | .ok i => m.gives i - m.takes i
  | .error _ => 0

/-- The depth of the stack once the instruction at `pc` has taken its entries. -/
def depthBetween (m : Machine σ) : Nat :=
  match m.script.decode m.pc with
  | .ok i => m.stack.length - m.takes i
  | .error _ => m.stack.length

/-- Whether a callback that the instruction at `pc` runs takes and returns data only. -/
def CallsData (m : Machine σ) : Prop :=
  ∀ i f, m.script.decode m.pc = .ok i → m.callee? i = some f → m.script.PassesData f

theorem callsData_iff {m : Machine σ} : m.CallsData ↔
    ∀ f ∈ (m.script.decode m.pc).toOption.bind m.callee?, m.script.PassesData f := by
  rw [CallsData]
  cases m.script.decode m.pc with
  | error => exact ⟨fun _ _ h => (nomatch h), fun _ _ _ h => (nomatch h)⟩
  | ok i =>
    refine ⟨fun h f hf => h i f rfl hf, fun h j f hj hf => h f ?_⟩
    rwa [Except.ok.inj hj]

instance (m : Machine σ) : Decidable m.CallsData := decidable_of_iff' _ callsData_iff

end Machine

/-- An instruction that succeeds takes the entries it takes, and gives those it gives. -/
theorem Stepped.replaces {r : Except Error Bool} {back : Bool} (h : Stepped b.calm w r w')
    (hr : r = .ok back) (hm : Matches w.machine) (hd : w.machine.CallsData) :
    ∃ i, w.machine.script.decode w.machine.pc = .ok i ∧
      Replaces (w.machine.takes i) (w.machine.gives i) w.machine.stack w'.machine.stack := by
  have hok : ∀ {s : Except Error Unit}, (s.map fun _ => false) = .ok back → s = .ok () := by
    intro s hs
    cases s with
    | error => cases hs
    | ok => rfl
  cases h with
  | undecodable | fails => cases hr
  | @proceeds i below memory context hi taken given hc hs ht hg =>
    have hn : w.machine.callee? i = none := callee?_eq_none hc
    refine ⟨i, hi, taken, given, below, hs, rfl, ?_, ?_⟩
    · rw [takes, hn, ht]
    · rw [gives, hn, hg]
  | @jumps i target below hi hj hop taken hs ht =>
    have hn : w.machine.callee? i = none := by
      refine callee?_eq_none ?_
      rcases hj with hj | hj <;> rw [hj] <;> rfl
    refine ⟨i, hi, taken, [], below, hs, rfl, ?_, ?_⟩
    · rw [takes, hn, ht]
    · rw [gives, hn]
      rcases hj with hj | hj <;> rw [hj] <;> rfl
  | @enters i target hi hbl hop ho =>
    have hn : w.machine.callee? i = none := by
      rw [callee?_of_bl hbl hop, ho]
      rfl
    refine ⟨i, hi, [], [], w.machine.stack, rfl, rfl, ?_, ?_⟩
    · rw [takes, hn, hbl]
      rfl
    · rw [gives, hn, hbl]
      rfl
  | @leaves i hi hrsr =>
    have hn : w.machine.callee? i = none := callee?_eq_none (by rw [hrsr]; rfl)
    obtain ⟨_, _, _, hl⟩ := (w.machine.fetched i).leave_eq_moved
    refine ⟨i, hi, [], [], w.machine.stack, rfl, by rw [hl]; rfl, ?_, ?_⟩
    · rw [takes, hn, hrsr]
      rfl
    · rw [gives, hn, hrsr]
      rfl
  | @external i index s _ hi hbe hop hc =>
    obtain rfl := hok hr
    refine ⟨i, hi, ?_⟩
    obtain ⟨f, hf, hrep⟩ := RunM.replaces_of_callExternal hc (hm.congr rfl rfl rfl)
    have hcallee : w.machine.callee? i = some f := (callee?_of_be hbe hop).trans hf
    rw [takes, gives, hcallee]
    exact hrep (hd i f hi hcallee)
  | @override i target index s _ hi hbl hop ho hc =>
    obtain rfl := hok hr
    refine ⟨i, hi, ?_⟩
    obtain ⟨f, hf, hrep⟩ := RunM.replaces_of_callOverride hc (hm.congr rfl rfl rfl)
    have hcallee : w.machine.callee? i = some f := by
      rw [callee?_of_bl hbl hop, ho]
      exact hf
    rw [takes, gives, hcallee]
    exact hrep (hd i f hi hcallee)

/-- An instruction leaves the callbacks bound under the declared signatures. -/
theorem Stepped.matches {r : Except Error Bool} (hb : b.callback.Keeps Evolves)
    (h : Stepped b w r w') (hp : w.machine.script.Indexed) (hm : Matches w.machine) :
    w'.machine.script = w.machine.script ∧ Matches w'.machine := by
  have hfetched : ∀ {i}, Matches (w.machine.fetched i) := hm.congr rfl rfl rfl
  cases h with
  | undecodable => exact ⟨rfl, hm⟩
  | fails _ he => exact he.evolves.matches hp hfetched
  | proceeds | jumps | enters => exact ⟨rfl, hm.congr rfl rfl rfl⟩
  | @leaves i =>
    obtain ⟨_, _, _, hl⟩ := (w.machine.fetched i).leave_eq_moved
    rw [hl]
    exact ⟨rfl, hm.congr rfl rfl rfl⟩
  | external _ _ _ hc =>
    exact (RunM.keeps_callExternal stable_evolves hb _ _ _ _ hc).matches hp hfetched
  | override _ _ _ _ hc =>
    exact (RunM.keeps_callOverride stable_evolves hb _ _ _ _ hc).matches hp hfetched

/-! ## Sequences of instructions -/

/-- The lowest depth that is reached while the instructions at a list of machines are executed, from
a depth before the first of them. -/
def lowestDepth (depth : Nat) (ms : List (Machine σ)) : Nat :=
  ms.foldr (fun m low => min m.depthBetween low) depth

theorem lowestDepth_le (depth : Nat) {ms : List (Machine σ)} {m : Machine σ} (h : m ∈ ms) :
    lowestDepth depth ms ≤ m.depthBetween := by
  induction ms with
  | nil => cases h
  | cons n ms ih =>
    rcases List.mem_cons.1 h with rfl | h
    · exact Nat.min_le_left _ _
    · exact (Nat.min_le_right _ _).trans (ih h)

section

variable {ms : List (Machine σ)} (hb : b.callback.Keeps Evolves) (t : Trail b.calm w ms w')
  (hp : w.machine.script.Indexed) (hm : Matches w.machine) (hd : ∀ m ∈ ms, m.CallsData)

include hb t hp hm hd

/-- The depth after a sequence of instructions is the depth before plus what each of them adds. -/
theorem Trail.stack_length :
    (w'.machine.stack.length : Int) =
      w.machine.stack.length + (ms.map depthChange).sum := by
  induction t with
  | refl w => simp
  | @step w v w' back ms hs t ih =>
    obtain ⟨hdw, hds⟩ := List.forall_mem_cons.1 hd
    have hs := RunM.stepped_of_step hs
    obtain ⟨i, hi, hrep⟩ := hs.replaces rfl hm hdw
    -- the other instructions begin with a machine whose callbacks match alike
    obtain ⟨hscript, hmv⟩ := hs.matches (Budget.calm_keeps hb) hp hm
    have hchange : w.machine.depthChange = w.machine.gives i - w.machine.takes i := by
      rw [depthChange, hi]
    rw [ih (hscript ▸ hp) hmv hds, hrep.length_eq, List.map_cons, List.sum_cons, hchange]
    omega

/-- Entries that lie deeper than the stack gets during a sequence of instructions stay. -/
theorem Trail.rtake_stack {n : Nat} (hn : ∀ m ∈ ms, n ≤ m.depthBetween) :
    w'.machine.stack.rtake n = w.machine.stack.rtake n := by
  induction t with
  | refl => rfl
  | @step w v w' back ms hs t ih =>
    obtain ⟨hdw, hds⟩ := List.forall_mem_cons.1 hd
    obtain ⟨hnw, hns⟩ := List.forall_mem_cons.1 hn
    have hs := RunM.stepped_of_step hs
    obtain ⟨i, hi, hrep⟩ := hs.replaces rfl hm hdw
    obtain ⟨hscript, hmv⟩ := hs.matches (Budget.calm_keeps hb) hp hm
    -- what the instruction takes lies above the entries that stay
    have hlen : n + w.machine.takes i ≤ w.machine.stack.length := by
      have hbetween : w.machine.depthBetween = w.machine.stack.length - w.machine.takes i := by
        rw [depthBetween, hi]
      have htakes := hrep.takes_le
      omega
    rw [ih (hscript ▸ hp) hmv hds hns, hrep.rtake_eq hlen]

end

/-- A script with an external function that takes and returns an integer, and code that calls it. -/
def Script.external : Script :=
  .ofParts 50
    [{ Symbol.blank "" 0 .func none with
        flags := .union .external (.union .returns .const), extra := DataType.int.code },
      { Symbol.blank "" 1 .int none with count := 0, data := .ints [] }]
    #[64, 8, 0, 0, 0, 62, 0, 0, 0, 0]

/-- The script as it is compiled. -/
def Script.externalBytes : List UInt8 :=
  50 :: [2, 0, 0, 0, 2, 0xB5001, 0, 0, 0, 0, 0, 0, 0xFFFFFFFF, 0, 0, 0x2000, 0, 0, 0, 0, 0,
    0xFFFFFFFF, 10].flatMap LittleEndian.encode ++ [64, 8, 0, 0, 0, 62, 0, 0, 0, 0]

/-- A machine that runs the script and has an entry on its stack. -/
def World.external : World Unit := ⟨(), (Machine.new .external .default).pushEntry (.immediate 5)⟩

/-- Take any instructions that a machine with a loaded script executes one after the other, with
callbacks that leave the stack as they found it and functions that take and return data. The depth
afterwards is the depth before plus what the instructions add, whether external functions have a
callback or not, and all entries below the lowest depth reached are unchanged. -/
theorem stack_depth_of_trail {n steps : Nat} {ms : List (Machine σ)}
    (hr : Reachable w.machine) (t : Trail (Budget.nested n steps).calm w ms w')
    (hd : ∀ m ∈ ms, m.CallsData) :
    (w'.machine.stack.length : Int) =
        w.machine.stack.length + (ms.map depthChange).sum ∧
      w'.machine.stack.rtake (lowestDepth w.machine.stack.length ms) =
        w.machine.stack.rtake (lowestDepth w.machine.stack.length ms) := by
  have hb := (Budget.nested_keeps_evolves (σ := σ) n steps).callback
  obtain ⟨hp, hm⟩ := hr.matches
  exact ⟨t.stack_length hb hp hm hd,
    t.rtake_stack hb hp hm hd fun m hm => lowestDepth_le _ hm⟩

/-- A call of an external function takes what was pushed for it and gives a result, without a
callback too. The entry below is left alone. -/
theorem stack_depth_of_external :
    ∃ (w' : World Unit) (ms : List (Machine Unit)),
      Trail (Budget.nested 1 1).calm .external ms w' ∧ ms.map depthChange = [1, 0] ∧
        w'.machine.stack.length = 2 ∧ w'.machine.stack.rtake 1 = [.immediate 5] := by
  have hload : Script.load .windows1252 Script.externalBytes = .ok .external := rfl
  have hreach : Reachable World.external.machine :=
    ⟨_, _, _, _, hload, .single (.edit (.push _ _))⟩
  have hsteps : ∃ p ∈ RunM.step (Budget.nested 1 1).calm .external,
      ∃ q ∈ RunM.step (Budget.nested 1 1).calm p.2, p.1 = .ok false ∧ q.1 = .ok false ∧
        (∀ m ∈ [World.external.machine, p.2.machine], m.CallsData) ∧
        [World.external.machine, p.2.machine].map depthChange = [1, 0] ∧
        lowestDepth World.external.machine.stack.length
          [World.external.machine, p.2.machine] = 1 := by decide +kernel
  obtain ⟨⟨_, w₁⟩, h₁, ⟨_, w₂⟩, h₂, rfl, rfl, hd, hsum, hlow⟩ := hsteps
  have ht : Trail (Budget.nested 1 1).calm .external [World.external.machine, w₁.machine] w₂ :=
    .step h₁ (.step h₂ (.refl w₂))
  obtain ⟨hlen, hrest⟩ := stack_depth_of_trail hreach ht hd
  rw [hsum] at hlen
  rw [hlow] at hrest
  exact ⟨w₂, _, ht, hsum, Int.ofNat.inj hlen, hrest⟩

end ScriptMachine
