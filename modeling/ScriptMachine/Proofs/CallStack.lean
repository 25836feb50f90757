import ScriptMachine.Proofs.StackDepth

/-!
# The stack of a call

A call pushes its arguments, runs the function, and pops one entry if the function declares a result
and the stack has become deeper. It does not cut the stack back to its depth before the call, so it
is the function that decides which entries stay.

* `Machine.stack_of_takeResult` – what a call pops.
* `RunM.exists_left_of_invoke`, `RunM.exists_left_of_trail` – what a function leaves that is run by
  callbacks, or through its body.
* `RunM.stack_of_call` – the stack after a call.
-/

namespace ScriptMachine

open Machine

/-- If all entries above some others are taken, those others stay. -/
theorem Replaces.exists_given {gives : Nat} {above below s : List Entry}
    (h : Replaces above.length gives (above ++ below) s) :
    ∃ given, s = given ++ below ∧ given.length = gives := by
  obtain ⟨taken, given, rest, hs, rfl, htaken, hgiven⟩ := h
  obtain ⟨-, rfl⟩ := List.append_inj hs htaken.symm
  exact ⟨given, rfl, hgiven⟩

/-- A function returns one value at most. -/
theorem Symbol.results_le_one (f : Symbol) : f.results ≤ 1 := by
  rw [results]
  split <;> decide

variable {σ : Type}

namespace Machine

variable {m m' : Machine σ} {f : Symbol}

/-- The result of a call is the top of the stack, provided that the function has made the stack
deeper. -/
theorem stack_of_takeResult {k : Kind} {depth : Nat} {v : Value}
    (h : takeResult f k depth m = (.ok v, m')) (hk : Script.resultKind f = .ok k) :
    m'.stack = if depth < m.stack.length then m.stack.drop f.results else m.stack := by
  rw [Script.results_eq hk]
  by_cases hv : k = .void
  · rw [takeResult, if_pos hv] at h
    obtain ⟨-, rfl⟩ := MachineM.eq_of_pure h
    rw [if_pos hv, List.drop_zero, ite_self]
  rw [takeResult, if_neg hv, MachineM.get_bind] at h
  rw [if_neg hv]
  by_cases hd : m.stack.length ≤ depth
  · rw [if_pos hd] at h
    obtain ⟨-, rfl⟩ := Prod.mk.inj h
    rw [if_neg (Nat.not_lt.2 hd)]
    rfl
  · rw [if_neg hd] at h
    obtain ⟨e, he⟩ := stack_of_popValue hv h
    rw [if_pos (Nat.lt_of_not_le hd), he]
    rfl

/-- Entries that a function left on those of its caller: the result goes, all others stay. -/
theorem stack_of_takeResult_append {k : Kind} {left below : List Entry} {v : Value}
    (h : takeResult f k below.length m = (.ok v, m')) (hk : Script.resultKind f = .ok k)
    (hs : m.stack = left ++ below) : m'.stack = left.drop f.results ++ below := by
  rw [stack_of_takeResult h hk, hs]
  cases left with
  | nil =>
    rw [List.nil_append, if_neg (Nat.lt_irrefl _), List.drop_nil, List.nil_append]
  | cons e left =>
    have hdeep : below.length < (e :: left ++ below).length := by
      rw [List.length_append, List.length_cons]
      omega
    have hres : f.results ≤ (e :: left).length :=
      f.results_le_one.trans (Nat.le_add_left 1 left.length)
    rw [if_pos hdeep, List.drop_append_of_le_length hres]

/-- The stack is the one before exactly if the function left it that way, or with its result on
top. -/
theorem stack_of_takeResult_eq_iff {k : Kind} {below : List Entry} {v : Value}
    (h : takeResult f k below.length m = (.ok v, m')) (hk : Script.resultKind f = .ok k) :
    m'.stack = below ↔
      m.stack = below ∨ f.results = 1 ∧ ∃ e, m.stack = e :: below := by
  constructor
  · intro hs
    rw [stack_of_takeResult h hk] at hs
    split at hs
    · next hd =>
      -- the function has made the stack deeper, so there is an entry on top
      obtain ⟨e, rest, hm⟩ := List.exists_cons_of_length_pos (Nat.zero_lt_of_lt hd)
      rcases Nat.le_one_iff_eq_zero_or_eq_one.1 f.results_le_one with hr | hr
      · rw [hr, List.drop_zero] at hs
        exact .inl hs
      · rw [hm, hr] at hs
        exact .inr ⟨hr, e, hm.trans (congrArg (e :: ·) hs)⟩
    · exact .inl hs
  · rintro (hs | ⟨hr, e, hs⟩)
    · rw [stack_of_takeResult h hk, hs, if_neg (Nat.lt_irrefl _)]
    · rw [stack_of_takeResult h hk, hs, hr]
      exact if_pos (Nat.lt_succ_self _)

end Machine

/-- A world in which the body of a function that was called with arguments is about to run. -/
def World.calling (w : World σ) (f : Symbol) (args : List Value) : World σ :=
  { w with machine := (w.machine.beginCall f args).entered (some f.index) f.address true }

/-! ## Small scripts -/

/-- A function that returns a number. -/
def Symbol.seven : Symbol :=
  { body "" 2 6 with flags := .union .returns .const, extra := DataType.int.code }

/-- A script with a function that calls the one above and does not use the result, one whose body
takes an entry of its caller, and the function above. -/
def Script.unbalanced : Script :=
  .ofParts 50 [.body "" 0 0, .body "" 1 12, .seven]
    #[61, 6, 0, 0, 0, 60, 64, 7, 0, 0, 0, 60, 76, 17, 0, 0, 0, 60]

/-- The script as it is compiled. -/
def Script.unbalancedBytes : List UInt8 :=
  50 :: [3, 0, 0, 0, 0, 0, 0x15000, 0, 0, 0, 0, 0, 0, 0xFFFFFFFF, 0, 0, 0x15000, 0, 0, 0, 0, 0, 12,
    0xFFFFFFFF, 0, 2, 0x35000, 0, 0, 0, 0, 0, 6, 0xFFFFFFFF, 18].flatMap LittleEndian.encode ++
    [61, 6, 0, 0, 0, 60, 64, 7, 0, 0, 0, 60, 76, 17, 0, 0, 0, 60]

/-- A machine that runs the script, with an entry of the host on its stack. -/
def World.unbalanced : World Unit :=
  ⟨(), (Machine.new .unbalanced .default).push (.int 5)⟩

set_option maxRecDepth 1000 in
theorem World.reachable_unbalanced : Reachable World.unbalanced.machine := by
  have hload : Script.load .windows1252 Script.unbalancedBytes = .ok .unbalanced := rfl
  exact ⟨_, _, _, _, hload, .single (.edit (.push _ _))⟩

namespace RunM

variable {b : Budget σ} {w w' : World σ}

/-- A function that is run by callbacks takes an entry for each of its parameters and gives one for
its result. -/
theorem replaces_of_invoke {f : Symbol} (h : invoke b.calm f w = some (.ok (), w'))
    (hp : w.machine.script.symbolByIndex? f.index = some f) (hm : Matches w.machine)
    (hd : w.machine.script.PassesData f)
    (hf : w.machine.hasOverride f.index = true ∨ f.isExternal = true) :
    Replaces (w.machine.script.parametersOf f).length f.results w.machine.stack
      w'.machine.stack := by
  rcases invoke_eq_some h with ⟨-, h⟩ | ⟨-, h⟩ | ⟨ho, he, -⟩
  · obtain ⟨g, hg, hrep⟩ := replaces_of_callOverride h hm
    obtain rfl := Option.some.inj (hp.symm.trans hg)
    exact hrep hd
  · obtain ⟨g, hg, hrep⟩ := replaces_of_callExternal h hm
    obtain rfl := Option.some.inj (hp.symm.trans hg)
    exact hrep hd
  · rw [ho, he] at hf
    rcases hf with hf | hf <;> cases hf

/-- On the entries of the caller, such a function leaves its result and nothing else. -/
theorem exists_left_of_invoke {key : SymbolKey} {args : List Value} {expected : Option Kind}
    {f : Symbol} {s : Signature}
    (h : invoke b.calm f { w with machine := w.machine.beginCall f args } = some (.ok (), w'))
    (ha : Accepts w.machine key args expected f s) (hp : w.machine.script.Indexed)
    (hm : Matches w.machine) (hd : w.machine.script.PassesData f)
    (hf : w.machine.hasOverride f.index = true ∨ f.isExternal = true) :
    ∃ left, w'.machine.stack = left ++ w.machine.stack ∧ left.length = f.results := by
  have hfind : w.machine.script.find key = .ok f := by rw [Script.find, ha.found]
  have hindex := hp key f hfind (.inr ha.callable)
  rw [beginCall_eq] at h
  have hrep := replaces_of_invoke h hindex (hm.congr rfl rfl rfl) hd hf
  -- there are as many arguments as parameters
  have hlen : (w.machine.script.parametersOf f).length =
      (args.map Entry.value).reverse.length := by
    have hparams := (Script.declaredSignature_eq_ok ha.declared).1
    rw [(Script.forall₂_kind_of_mapM hparams).length_eq, ← ha.kinds, List.length_reverse,
      List.length_map, List.length_map]
  have hrep : Replaces (args.map Entry.value).reverse.length f.results
      ((args.map Entry.value).reverse ++ w.machine.stack) w'.machine.stack := hlen ▸ hrep
  exact hrep.exists_given

/-- Instructions that do not get below the entries `below` leave them, and leave as many entries on
top of them as the sum of what each of them adds allows. -/
theorem exists_left_of_trail {ms : List (Machine σ)} {above below : List Entry}
    (hb : b.callback.Keeps Evolves) (t : Trail b.calm w ms w') (hp : w.machine.script.Indexed)
    (hm : Matches w.machine) (hms : ∀ m ∈ ms, m.CallsData ∧ below.length ≤ m.depthBetween)
    (hs : w.machine.stack = above ++ below) :
    ∃ left, w'.machine.stack = left ++ below ∧
      (left.length : Int) = above.length + (ms.map depthChange).sum := by
  have hd : ∀ m ∈ ms, m.CallsData := fun m hm => (hms m hm).1
  have hbelow : w'.machine.stack.rtake below.length = below := by
    rw [t.rtake_stack hb hp hm hd fun m hm => (hms m hm).2, hs, List.rtake, List.length_append,
      Nat.add_sub_cancel, List.drop_left]
  -- the lowest entries are those of `below`, so it is what lies above them that is left
  obtain ⟨left, hleft⟩ : ∃ left, w'.machine.stack = left ++ below :=
    ⟨_, (List.take_append_drop _ _).symm.trans (congrArg _ hbelow)⟩
  refine ⟨left, hleft, ?_⟩
  have hlen := t.stack_length hb hp hm hd
  rw [hleft, hs, List.length_append, List.length_append] at hlen
  omega

/-- Take a call that succeeds, on a machine that runs a loaded script. The stack is the one that the
function left, without its top if the function declares a result and the stack got deeper, so it is
the one before the call exactly if the function left that, or that and its result. If the callbacks
leave the stack as they found it, functions that are run by callbacks and take and return data leave
just their result. A body whose instructions do not get below the entries of the caller leaves
these, but on top of them whatever it has added to the arguments. -/
theorem stack_of_call {n steps : Nat} {key : SymbolKey} {args : List Value}
    {expected : Option Kind} {v : Value} (hr : Reachable w.machine)
    (h : call (.nested n steps) key args expected w = some (.ok v, w')) :
    ∃ f s u, Accepts w.machine key args expected f s ∧
      invoke (.nested n steps) f { w with machine := w.machine.beginCall f args } =
        some (.ok (), u) ∧
      w'.machine.stack =
        (if w.machine.stack.length < u.machine.stack.length then u.machine.stack.drop f.results
          else u.machine.stack) ∧
      (w'.machine.stack = w.machine.stack ↔ u.machine.stack = w.machine.stack ∨
        f.results = 1 ∧ ∃ e, u.machine.stack = e :: w.machine.stack) ∧
      (invoke (Budget.nested n steps).calm f { w with machine := w.machine.beginCall f args } =
          some (.ok (), u) →
        (w.machine.hasOverride f.index = true ∨ f.isExternal = true →
          w.machine.script.PassesData f → w'.machine.stack = w.machine.stack) ∧
        (w.machine.hasOverride f.index = false → f.isExternal = false →
          (∃ ms, Trail (Budget.nested n steps).calm (w.calling f args) ms u) ∧
          ∀ ms, Trail (Budget.nested n steps).calm (w.calling f args) ms u →
            (∀ m ∈ ms, m.CallsData ∧ w.machine.stack.length ≤ m.depthBetween) →
            ∃ left, u.machine.stack = left ++ w.machine.stack ∧
              w'.machine.stack = left.drop f.results ++ w.machine.stack ∧
              (left.length : Int) = args.length + (ms.map depthChange).sum)) := by
  have hb := (Budget.nested_keeps_evolves (σ := σ) n steps).callback
  obtain ⟨hp, hm⟩ := hr.matches
  cases call_eq_some h with
  | @returned f s v u m ha hi ht =>
    have hresult := (Script.declaredSignature_eq_ok ha.declared).2
    refine ⟨f, s, u, ha, hi, stack_of_takeResult ht hresult,
      stack_of_takeResult_eq_iff ht hresult, fun hc => ⟨fun hf hd => ?_, fun ho he => ?_⟩⟩
    · obtain ⟨left, hleft, hlen⟩ := exists_left_of_invoke hc ha hp hm hd hf
      rw [stack_of_takeResult_append ht hresult hleft, ← hlen, List.drop_length, List.nil_append]
    · rcases invoke_eq_some hc with ⟨ho', -⟩ | ⟨he', -⟩ | ⟨-, -, hc⟩
      · rw [beginCall_eq] at ho'
        exact absurd (ho.symm.trans ho') Bool.false_ne_true
      · exact absurd (he.symm.trans he') Bool.false_ne_true
      cases runFunction_eq_some hc with
      | left _ hl =>
        refine ⟨exists_trail_of_loop hl, fun ms t hms => ?_⟩
        rw [World.calling, beginCall_eq] at t
        obtain ⟨left, hleft, hlen⟩ := exists_left_of_trail hb t hp (hm.congr rfl rfl rfl) hms rfl
        rw [List.length_reverse, List.length_map] at hlen
        exact ⟨left, hleft, stack_of_takeResult_append ht hresult hleft, hlen⟩

/-- The unused result of a nested call is not discarded, and an entry of the caller that a body
takes is not put back. -/
theorem not_stack_restored :
    ∃ w : World Unit, Reachable w.machine ∧ w.machine.poison = none ∧
      w.machine.stack = [.value (.int 5)] ∧
      (∃ w', call (.nested 1 4) (.index 0) [] (some .void) w = some (.ok .void, w') ∧
        w'.machine.stack = [.immediate 7, .value (.int 5)]) ∧
      ∃ w', call (.nested 1 2) (.index 1) [] none w = some (.ok .void, w') ∧
        w'.machine.stack = [] :=
  ⟨.unbalanced, World.reachable_unbalanced, rfl, rfl, ⟨_, rfl, rfl⟩, _, rfl, rfl⟩

/-- A function that returns the only entry its body adds leaves the stack as it was. -/
theorem stack_of_call_of_seven :
    ∃ (u w' : World Unit) (ms : List (Machine Unit)),
      call (.nested 1 2) (.index 2) [] none .unbalanced = some (.ok .void, w') ∧
        Trail (Budget.nested 1 2).calm (World.unbalanced.calling .seven []) ms u ∧
        ms.map depthChange = [1, 0] ∧ w'.machine.stack = [.value (.int 5)] := by
  -- the body runs no callbacks, so that it runs in the same way if these leave the stack alone
  obtain ⟨w', u, v, h, hi, hc, h₁, h₂⟩ : ∃ (w' u v : World Unit),
      call (.nested 1 2) (.index 2) [] none .unbalanced = some (.ok .void, w') ∧
        invoke (.nested 1 2) .seven ⟨(), World.unbalanced.machine.beginCall .seven []⟩ =
          some (.ok (), u) ∧
        invoke (Budget.nested 1 2).calm .seven
          ⟨(), World.unbalanced.machine.beginCall .seven []⟩ = some (.ok (), u) ∧
        step (Budget.nested 1 2).calm (World.unbalanced.calling .seven []) = some (.ok false, v) ∧
        step (Budget.nested 1 2).calm v = some (.ok true, u) :=
    ⟨_, _, _, rfl, rfl, rfl, rfl, rfl⟩
  have ht := Trail.step h₁ (.step h₂ (.refl u))
  have hms : ∀ p ∈ step (Budget.nested 1 2).calm (World.unbalanced.calling .seven []),
      (∀ m ∈ [(World.unbalanced.calling .seven []).machine, p.2.machine],
        m.CallsData ∧ World.unbalanced.machine.stack.length ≤ m.depthBetween) ∧
      [(World.unbalanced.calling .seven []).machine, p.2.machine].map depthChange = [1, 0] := by
    decide +kernel
  obtain ⟨hms, hsum⟩ := hms _ h₁
  obtain ⟨f, s, u', ha, hi', -, -, hcalm⟩ := stack_of_call World.reachable_unbalanced h
  obtain rfl : Symbol.seven = f := Option.some.inj ha.found
  obtain rfl : u = u' := (Prod.mk.inj (Option.some.inj (hi.symm.trans hi'))).2
  obtain ⟨left, -, hleft, hlen⟩ := ((hcalm hc).2 rfl rfl).2 _ ht hms
  refine ⟨u, w', _, h, ht, hsum, ?_⟩
  -- one entry is left, which is the result
  rw [hsum] at hlen
  have hdrop : left.drop Symbol.seven.results = [] :=
    List.drop_eq_nil_of_le (Nat.le_of_eq (Int.ofNat.inj hlen))
  rw [hleft, hdrop]
  rfl

end RunM

end ScriptMachine
