import ScriptMachine.Proofs.Popping
import ScriptMachine.Proofs.StackDepth

/-!
# How many entries an external function consumes

An external function is run by its own callback, for which the arguments are popped at their
declared kinds, or by none, and then as many entries are dropped as it declares parameters. Both
remove the same entries unless a parameter is declared void: nothing is popped for it, but an entry
is dropped, and a caller has pushed one.

* `Machine.Serves`, `Machine.Resolves` – the entries that can be popped as arguments, and what they
  are read as.
* `Machine.takeArguments_of_resolves` – the arguments that a callback takes.
* `RunM.depth_of_dispatches` – how far the two ways to run an external function are apart.
* `RunM.not_same_depth` – a parameter that is declared void.
-/

namespace ScriptMachine

open Machine

variable {σ : Type}

namespace Machine

variable {m : Machine σ}

/-- Whether an entry can be popped as an argument of a kind. No entry is popped for no value. -/
def Serves (m : Machine σ) (k : Kind) (e : Entry) : Prop :=
  ∃ c a, CellKind.ofKind? k = some c ∧ m.content? c e = some (.ok a)

/-- Whether an entry that is popped at a kind is read as a value. -/
def Resolves (m : Machine σ) (k : Kind) (e : Entry) (v : Value) : Prop :=
  ∃ c a, CellKind.ofKind? k = some c ∧ m.content? c e = some (.ok a) ∧ v = c.toValue a

theorem serves_iff {k : Kind} {e : Entry} : Serves m k e ↔ ∃ v, Resolves m k e v :=
  ⟨fun ⟨c, a, hk, ha⟩ => ⟨_, c, a, hk, ha, rfl⟩, fun ⟨_, c, a, hk, ha, _⟩ => ⟨c, a, hk, ha⟩⟩

/-- A value is read as itself at its kind. -/
theorem resolves_value {v : Value} (hv : v.kind ≠ .void) (m : Machine σ) :
    Resolves m v.kind (.value v) v := by
  obtain ⟨c, hc, -⟩ := CellKind.exists_of_ne_void hv
  obtain ⟨a, rfl⟩ : ∃ a, v = c.toValue a := by
    cases v <;> cases hc <;> exact ⟨_, rfl⟩
  refine ⟨c, a, hc, ?_, rfl⟩
  rw [content?, Value.content?_toValue]
  rfl

/-- What an entry is read as does not depend on the entries around it. -/
theorem Resolves.withStack {k : Kind} {e : Entry} {v : Value} (h : Resolves m k e v)
    (stack : List Entry) : Resolves (m.withStack stack) k e v := by
  obtain ⟨c, a, hk, ha, hv⟩ := h
  refine ⟨c, a, hk, ?_, hv⟩
  rw [← ha]
  cases e <;> rfl

/-- An argument on top of the stack is popped, and nothing else. -/
theorem popValue_of_resolves {k : Kind} {e : Entry} {v : Value} {below : List Entry}
    (h : Resolves m k e v) (hs : m.stack = e :: below) :
    popValue k m = (.ok v, m.withStack below) := by
  obtain ⟨c, a, hk, ha, rfl⟩ := h
  rcases hp : pop c m with ⟨r, m'⟩
  rcases pop_eq hp with ⟨hnil, -, -⟩ | ⟨e', rest, hs', hcase⟩
  · rw [hs] at hnil
    cases hnil
  obtain ⟨rfl, rfl⟩ := List.cons.inj (hs.symm.trans hs')
  rcases hcase with ⟨hr, rfl⟩ | ⟨err, hnone, -, -⟩
  · obtain rfl : .ok a = r := Option.some.inj (ha.symm.trans hr)
    rw [popValue, hk]
    exact MachineM.bind_eq_ok.2 ⟨a, _, hp, rfl⟩
  · rw [ha] at hnone
    cases hnone

/-- The arguments on top of the stack are popped, and nothing else. -/
theorem popOnto_of_resolves {ks : List Kind} :
    ∀ {given : List (Entry × Value)} {below : List Entry} {m : Machine σ} (vs : List Value),
      List.Forall₂ (fun k g => Resolves m k g.1 g.2) ks given →
      m.stack = given.map Prod.fst ++ below →
        popOnto vs ks m = (.ok ((given.map Prod.snd).reverse ++ vs), m.withStack below) := by
  induction ks with
  | nil =>
    intro given below m vs h hs
    cases h
    obtain rfl : m.stack = below := hs
    rfl
  | cons k ks ih =>
    intro given below m vs h hs
    cases h with
    | @cons _ g _ given hg hgiven =>
    have hv := popValue_of_resolves hg hs
    have hrest := ih (m := m.withStack (given.map Prod.fst ++ below)) (g.2 :: vs)
      (hgiven.imp fun _ _ h => h.withStack _) rfl
    rw [List.map_cons, List.reverse_cons, List.append_assoc]
    exact MachineM.bind_eq_ok.2 ⟨g.2, _, hv, hrest⟩

/-- The arguments of a callback are taken off the stack, where the last one is on top. -/
theorem takeArguments_of_resolves {f : Symbol} {x : Binding σ} {es : List (Entry × Value)}
    {below : List Entry} (h : List.Forall₂ (fun k e => Resolves m k e.1 e.2) x.params es)
    (hs : m.stack = (es.map Prod.fst).reverse ++ below) :
    takeArguments f x m = (.ok (es.map Prod.snd),
      (m.withStack below).report (.dispatched f.name (es.map Prod.snd))) := by
  rw [← List.map_reverse] at hs
  have hpop := popOnto_of_resolves [] (List.forall₂_reverse_iff.2 h) hs
  rw [List.map_reverse, List.reverse_reverse, List.append_nil] at hpop
  exact MachineM.bind_eq_ok.2 ⟨_, _, hpop, rfl⟩

/-- Entries on top of the stack are dropped, whatever they are. -/
theorem dropEntries_append {given : List Entry} :
    ∀ {below : List Entry} {m : Machine σ}, m.stack = given ++ below →
      dropEntries given.length m = (.ok (), m.withStack below) := by
  induction given with
  | nil =>
    intro below m hs
    rw [← List.nil_append below, ← hs]
    rfl
  | cons e given ih =>
    intro below m hs
    have hpop : popEntry m = (.ok e, m.withStack (given ++ below)) := by
      unfold popEntry
      split
      · next hnil =>
        rw [hnil] at hs
        cases hs
      · next e' rest hs' =>
        obtain ⟨rfl, rfl⟩ := List.cons.inj (hs'.symm.trans hs)
        rfl
    exact MachineM.bind_eq_ok.2 ⟨_, _, hpop, ih rfl⟩

/-- Entries that can be popped as arguments are taken off the stack. -/
theorem takeArguments_of_serves {f : Symbol} {x : Binding σ} {given below : List Entry}
    (h : List.Forall₂ (Serves m) x.params.reverse given) (hs : m.stack = given ++ below) :
    ∃ args m', takeArguments f x m = (.ok args, m') ∧ m'.stack = below := by
  have hes : ∀ {ks given}, List.Forall₂ (Serves m) ks given → ∃ es : List (Entry × Value),
      given = es.map Prod.fst ∧ List.Forall₂ (fun k e => Resolves m k e.1 e.2) ks es := by
    intro ks given h
    induction h with
    | nil => exact ⟨[], rfl, .nil⟩
    | @cons _ e _ _ he _ ih =>
      obtain ⟨v, hv⟩ := serves_iff.1 he
      obtain ⟨es, rfl, hes⟩ := ih
      exact ⟨(e, v) :: es, rfl, .cons hv hes⟩
  obtain ⟨es, rfl, hes⟩ := hes h
  have hparams := List.forall₂_reverse_iff.2 hes
  rw [List.reverse_reverse] at hparams
  exact ⟨_, _, takeArguments_of_resolves hparams (by simpa using hs), rfl⟩

/-- An external function without a callback drops an entry for each parameter. -/
theorem balance_append {f : Symbol} {k : Kind} {given below : List Entry}
    (hk : Script.resultKind f = .ok k) (hlen : given.length = (m.script.parametersOf f).length)
    (hs : m.stack = given ++ below) :
    ∃ result m', balance f m = (.ok (), m') ∧ m'.stack = result ++ below ∧
      result.length = f.results := by
  have hdrop := dropEntries_append hs
  rw [hlen] at hdrop
  obtain ⟨m', hm'⟩ : ∃ m', balance f m = (.ok (), m') := by
    rw [balance, MachineM.get_bind]
    rcases hr : f.returnType?.bind DataType.kind? with _ | j
    · exact ⟨_, MachineM.bind_eq_ok.2 ⟨_, _, hdrop, rfl⟩⟩
    · exact ⟨_, MachineM.bind_eq_ok.2 ⟨_, _, hdrop, rfl⟩⟩
  obtain ⟨taken, result, below', ht, hr, htl, hrl⟩ := replaces_balance hm' hk
  have hbelow : below' = below :=
    (List.append_inj (ht.symm.trans hs) (htl.trans hlen.symm)).2
  exact ⟨result, m', hm', hbelow ▸ hr, hrl⟩

end Machine

/-- Only the type void has the kind of no value. -/
theorem DataType.kind?_eq_void {t : DataType} : t.kind? = some .void ↔ t = .void := by
  cases t <;> simp [kind?]

/-- A parameter has the kind of no value exactly if it is declared void. -/
theorem Script.count_void_eq_zero {p : Script} {f : Symbol} {s : Signature}
    (hs : p.declaredSignature f = .ok s) :
    s.params.count .void = 0 ↔ ∀ t ∈ p.parametersOf f, t.type ≠ .void := by
  have hkinds := forall₂_kind_of_mapM (declaredSignature_eq_ok hs).1
  rw [List.count_eq_zero]
  generalize p.parametersOf f = l, s.params = ks at hkinds ⊢
  induction hkinds with
  | nil => simp
  | @cons t k l ks hk _ ih =>
    have hvoid : .void = k ↔ t.type = .void := by
      rw [← DataType.kind?_eq_void, hk, Option.some.injEq, eq_comm]
    rw [List.mem_cons, not_or, List.forall_mem_cons]
    exact and_congr (not_congr hvoid) ih

/-! ## Small scripts and hosts -/

/-- A script with an external function whose parameter is declared void. -/
def Script.voidParameter : Script :=
  .ofParts 50
    [{ Symbol.blank "" 0 .func none with flags := .union .external .const },
      { Symbol.blank "" 1 .void none with count := 0 }]
    #[62, 0, 0, 0, 0]

/-- The script as it is compiled. -/
def Script.voidParameterBytes : List UInt8 :=
  50 :: [2, 0, 0, 0, 0, 0x95001, 0, 0, 0, 0, 0, 0, 0xFFFFFFFF, 0, 0, 0, 0, 0, 0, 0, 0,
    0xFFFFFFFF, 5].flatMap LittleEndian.encode ++ [62, 0, 0, 0, 0]

/-- A machine that runs a script whose first function is bound to a callback, which returns a value
and does nothing else. There are entries on the stack. -/
def World.answering (p : Script) (params : List Kind) (v : Value) (stack : List Entry) :
    World Unit :=
  let x : Binding Unit := ⟨fun _ => .finish (.ok v), params, v.kind⟩
  ⟨(), { Machine.new p .default with
    stack, registrations.externals := Bindings.empty.insert 0 x }⟩

namespace RunM

variable {b : Budget σ} {w v : World σ}

/-- An external function that is run once by its callback and once by none, on the same stack and
with callbacks that leave it alone: the first stack is deeper by an entry for each parameter that is
declared void, so that both are of the same depth exactly if there is no such parameter. Then both
ways remove the arguments that a caller has pushed, and nothing else. -/
theorem depth_of_dispatches {i : UInt32} {f : Symbol} {x : Binding σ}
    (hw : Reachable w.machine) (hf : w.machine.script.symbolByIndex? i = some f)
    (hx : w.machine.registrations.externals i = some x)
    (hv : v.machine.registrations.externals i = none)
    (hscript : v.machine.script = w.machine.script)
    (hstack : v.machine.stack = w.machine.stack) :
    (∀ w' v', callExternal b.calm i w = some (.ok (), w') →
      callExternal b.calm i v = some (.ok (), v') →
      w'.machine.stack.length = v'.machine.stack.length + x.params.count .void ∧
        (w'.machine.stack.length = v'.machine.stack.length ↔
          ∀ s ∈ w.machine.script.parametersOf f, s.type ≠ .void)) ∧
    ∀ given below, List.Forall₂ (Serves w.machine) x.params.reverse given →
      w.machine.stack = given ++ below →
      ∃ args m result m', takeArguments f x w.machine = (.ok args, m) ∧ m.stack = below ∧
        balance f v.machine = (.ok (), m') ∧ m'.stack = result ++ below ∧
        result.length = f.results := by
  -- the callback is bound under the signature of the function that is called
  obtain ⟨g, hg, -, hs⟩ := hw.matches.2.external i x hx
  obtain rfl : f = g := Option.some.inj (hf.symm.trans hg)
  have hlen := (Script.forall₂_kind_of_mapM (Script.declaredSignature_eq_ok hs).1).length_eq
  have hresult := (Script.declaredSignature_eq_ok hs).2
  refine ⟨fun w' v' h h' => ?_, fun given below hserves hgiven => ?_⟩
  · have hrep : Replaces ((w.machine.script.parametersOf f).length - x.params.count .void) f.results
        w.machine.stack w'.machine.stack := by
      rcases callExternal_eq_some h with ⟨e, he, -⟩ | ⟨g, hg, -, ⟨y, hy, hd⟩ | ⟨hn, -⟩⟩
      · cases he
      · obtain rfl := Option.some.inj (hg.symm.trans hf)
        obtain rfl := Option.some.inj (hy.symm.trans hx)
        exact hd.replaces rfl hs
      · rw [hx] at hn
        cases hn
    have hrep' : Replaces (w.machine.script.parametersOf f).length f.results
        w.machine.stack v'.machine.stack := by
      rcases callExternal_eq_some h' with ⟨e, he, -⟩ | ⟨g, hg, -, ⟨y, hy, -⟩ | ⟨-, hd⟩⟩
      · cases he
      · rw [hv] at hy
        cases hy
      · rw [hscript] at hg
        obtain rfl := Option.some.inj (hg.symm.trans hf)
        have hrep := hd.replaces rfl hresult
        rwa [hscript, hstack] at hrep
    have hcount : x.params.count .void ≤ (w.machine.script.parametersOf f).length :=
      hlen ▸ List.count_le_length
    have hadds := hrep.length_eq
    have hadds' := hrep'.length_eq
    have hdepth : w'.machine.stack.length = v'.machine.stack.length + x.params.count .void := by
      omega
    refine ⟨hdepth, ?_⟩
    rw [← Script.count_void_eq_zero hs, hdepth]
    exact Nat.add_eq_left
  · obtain ⟨args, m, ht, hm⟩ := takeArguments_of_serves (f := f) hserves hgiven
    have hgivenlen : given.length = (v.machine.script.parametersOf f).length := by
      rw [hscript, hlen, ← hserves.length_eq, List.length_reverse]
      rfl
    obtain ⟨result, m', hb, hm', hr⟩ := balance_append hresult hgivenlen (hstack.trans hgiven)
    exact ⟨args, m, result, m', ht, hm, hb, hm', hr⟩

/-- An external function that takes and returns an integer leaves one entry in the place of its
argument, whether it is run by its callback or by none. -/
theorem depth_of_dispatches_of_external :
    ∃ w' v' : World Unit,
      callExternal (Budget.nested 1 1).calm 0
          (.answering .external [.int] (.int 7) [.immediate 5]) =
          some (.ok (), w') ∧
        callExternal (Budget.nested 1 1).calm 0 .external = some (.ok (), v') ∧
        w'.machine.stack.length = v'.machine.stack.length := by
  have hload : Script.load .windows1252 Script.externalBytes = .ok .external := rfl
  have hregister : (Machine.new Script.external Config.default).registerExternal (.index 0)
      ⟨fun _ => .finish (.ok (.int 7)), [.int], .int⟩ =
        .ok (World.answering .external [.int] (.int 7) []).machine := rfl
  have hreach : Reachable (World.answering .external [.int] (.int 7) [.immediate 5]).machine :=
    ⟨_, _, _, _, hload,
      .tail (.single (.edit (.registerExternal hregister))) (.edit (.push _ (.immediate 5)))⟩
  obtain ⟨hfirst, -⟩ := depth_of_dispatches (b := Budget.nested 1 1) (v := .external) (i := 0)
    hreach rfl rfl rfl rfl rfl
  have hruns : ∃ p ∈ callExternal (Budget.nested 1 1).calm 0
      (.answering .external [.int] (.int 7) [.immediate 5]),
      ∃ q ∈ callExternal (Budget.nested 1 1).calm 0 .external, p.1 = .ok () ∧ q.1 = .ok () := by
    decide +kernel
  obtain ⟨⟨_, w'⟩, hw, ⟨_, v'⟩, hv, rfl, rfl⟩ := hruns
  exact ⟨w', v', hw, hv, (hfirst w' v' hw hv).1⟩

/-- With a parameter that is declared void, an entry that the host pushes for it is left behind by a
callback, and dropped if there is none. -/
theorem not_same_depth :
    Script.load .windows1252 Script.voidParameterBytes = .ok .voidParameter ∧
      (∃ w', call (Budget.nested 1 1).calm (.index 0) [.void] none
          (.answering .voidParameter [.void] .void [.immediate 5]) = some (.ok .void, w') ∧
        w'.machine.stack = [.value .void, .immediate 5]) ∧
      ∃ v', call (Budget.nested 1 1).calm (.index 0) [.void] none
          ⟨(), (Machine.new .voidParameter .default).pushEntry (.immediate 5)⟩ =
            some (.ok .void, v') ∧
        v'.machine.stack = [.immediate 5] := by
  refine ⟨rfl, ?_, ?_⟩
  · have hrun : ∃ p ∈ call (Budget.nested 1 1).calm (.index 0) [.void] none
        (.answering .voidParameter [.void] .void [.immediate 5]),
        p.1 = .ok .void ∧ p.2.machine.stack = [.value .void, .immediate 5] := by decide +kernel
    obtain ⟨⟨_, w'⟩, hw, rfl, hs⟩ := hrun
    exact ⟨w', hw, hs⟩
  · have hrun : ∃ p ∈ call (Budget.nested 1 1).calm (.index 0) [.void] none
        ⟨(), (Machine.new .voidParameter .default).pushEntry (.immediate 5)⟩,
        p.1 = .ok .void ∧ p.2.machine.stack = [.immediate 5] := by decide +kernel
    obtain ⟨⟨_, v'⟩, hv, rfl, hs⟩ := hrun
    exact ⟨v', hv, hs⟩

end RunM

end ScriptMachine
