import ScriptMachine.Proofs.Generation
import ScriptMachine.Proofs.Permission

/-!
# Operations as edits

Each operation on a machine that a script or a host may perform consists of edits, whether it
succeeds or fails. What it takes off the stack before it fails stays off. Most operations are plain
edits; the others place a value or free an instance, and consist of what is permitted if this is.
-/

namespace ScriptMachine

namespace Machine

variable {σ α β : Type}

/-! ## The evaluation stack -/

/-- What popping does: an empty stack is left alone; else the top entry goes, and if it cannot serve
the kind that is asked for, the machine becomes unusable. -/
theorem pop_eq {k : CellKind} {m m' : Machine σ} {r : Except Error k.Content}
    (h : pop k m = (r, m')) :
    (m.stack = [] ∧ r = .error .stackUnderflow ∧ m' = m) ∨
      ∃ e rest, m.stack = e :: rest ∧
        ((m.content? k e = some r ∧ m' = m.withStack rest) ∨
          ∃ err, m.content? k e = none ∧ r = .error err ∧
            m' = (m.withStack rest).poisonWith err) := by
  unfold pop at h
  split at h
  · next hs =>
    obtain ⟨rfl, rfl⟩ := Prod.mk.inj h
    exact .inl ⟨hs, rfl, rfl⟩
  · next e rest hs =>
    refine .inr ⟨e, rest, hs, ?_⟩
    -- reading an entry does not look at the rest of the stack
    have hc : { m with stack := rest }.content? k e = m.content? k e := by cases e <;> rfl
    simp only [hc] at h
    split at h
    · next s hr =>
      obtain ⟨rfl, rfl⟩ := Prod.mk.inj h
      exact .inl ⟨hr, rfl⟩
    · next hr =>
      obtain ⟨rfl, rfl⟩ := Prod.mk.inj h
      exact .inr ⟨_, hr, rfl, rfl⟩

/-- What popping a reference does. -/
theorem popReference_eq {m m' : Machine σ} {r : Except Error Reference}
    (h : popReference m = (r, m')) :
    (m.stack = [] ∧ r = .error .stackUnderflow ∧ m' = m) ∨
      ∃ e rest, m.stack = e :: rest ∧
        ((∃ x, e = .reference x ∧ r = .ok x ∧ m' = m.withStack rest) ∨
          ∃ err, r = .error err ∧ m' = (m.withStack rest).poisonWith err) := by
  unfold popReference at h
  split at h
  · next hs =>
    obtain ⟨rfl, rfl⟩ := Prod.mk.inj h
    exact .inl ⟨hs, rfl, rfl⟩
  · next e rest hs =>
    refine .inr ⟨e, rest, hs, ?_⟩
    cases e with
    | reference x =>
      obtain ⟨rfl, rfl⟩ := Prod.mk.inj h
      exact .inl ⟨x, rfl, rfl, rfl⟩
    | value v =>
      obtain ⟨rfl, rfl⟩ := Prod.mk.inj h
      exact .inr ⟨_, rfl, rfl⟩
    | immediate n =>
      obtain ⟨rfl, rfl⟩ := Prod.mk.inj h
      exact .inr ⟨_, rfl, rfl⟩

section

variable {R : Machine σ → Machine σ → Prop} [Absorbs R]

/-- An error makes the machine unusable if it is not so already. -/
theorem absorbs_poisonWith (m : Machine σ) (err : Error) : R m (m.poisonWith err) := by
  by_cases hp : m.poison = none
  · exact Absorbs.plain (.fail hp err)
  · rw [poisonWith_of_poison hp]
    exact Absorbs.refl m

/-- Taking the top entry off and then failing are plain edits. -/
theorem absorbs_drop_poisonWith {m : Machine σ} {e : Entry} {rest : List Entry}
    (h : m.stack = e :: rest) (err : Error) : R m ((m.withStack rest).poisonWith err) :=
  Absorbs.trans (Absorbs.plain (.drop h)) (absorbs_poisonWith _ err)

theorem keeps_pop (k : CellKind) : MachineM.Keeps R (pop k) := by
  intro m r m' h
  rcases pop_eq h with ⟨-, -, rfl⟩ | ⟨e, rest, hs, ⟨-, rfl⟩ | ⟨err, -, -, rfl⟩⟩
  · exact Absorbs.refl _
  · exact Absorbs.plain (.drop hs)
  · exact absorbs_drop_poisonWith hs err

theorem keeps_popReference : MachineM.Keeps R popReference := by
  intro m r m' h
  rcases popReference_eq h with ⟨-, -, rfl⟩ | ⟨e, rest, hs, ⟨x, -, -, rfl⟩ | ⟨err, -, rfl⟩⟩
  · exact Absorbs.refl _
  · exact Absorbs.plain (.drop hs)
  · exact absorbs_drop_poisonWith hs err

theorem keeps_popEntry : MachineM.Keeps R popEntry := by
  intro m r m' h
  unfold popEntry at h
  split at h
  · obtain ⟨-, rfl⟩ := Prod.mk.inj h
    exact Absorbs.refl _
  · next e rest hs =>
    obtain ⟨-, rfl⟩ := Prod.mk.inj h
    exact Absorbs.plain (.drop hs)

theorem keeps_popValue (k : Kind) : MachineM.Keeps R (popValue k) := by
  rw [popValue]
  split
  · exact .bind Absorbs.trans (keeps_pop _) fun _ => .pure Absorbs.refl _
  · exact .pure Absorbs.refl _

theorem keeps_popOnto (ks : List Kind) : ∀ vs, MachineM.Keeps R (popOnto vs ks) := by
  induction ks with
  | nil => exact fun vs => .pure Absorbs.refl vs
  | cons k ks ih =>
    exact fun vs => .bind Absorbs.trans (keeps_popValue k) fun v => ih (v :: vs)

theorem keeps_dropEntries (n : Nat) : MachineM.Keeps R (dropEntries n) := by
  induction n with
  | zero => exact .pure Absorbs.refl _
  | succ n ih => exact .bind Absorbs.trans keeps_popEntry fun _ => ih

/-- A zero that stands for a result takes one place on the stack or none. -/
theorem absorbs_pushDefault (m : Machine σ) (k : Kind) : R m (m.pushResult (.default k)) := by
  rw [pushResult]
  split
  · exact Absorbs.refl m
  · exact Absorbs.plain (.push m (by cases k <;> simp [Value.default]))

end

/-- Pushing values changes the stack only. -/
theorem pushAll_eq (vs : List Value) :
    ∀ m : Machine σ, m.pushAll vs = m.withStack ((vs.map .value).reverse ++ m.stack) := by
  induction vs with
  | nil => exact fun m => rfl
  | cons v vs ih =>
    intro m
    have hv : m.pushAll (v :: vs) = (m.push v).pushAll vs := rfl
    rw [hv, ih, List.map_cons, List.reverse_cons, List.append_assoc]
    rfl

/-- The arguments of a call lie on the entries of the caller, the last one on top. -/
theorem beginCall_eq (m : Machine σ) (f : Symbol) (args : List Value) :
    m.beginCall f args =
      (m.report (.called f.name)).withStack ((args.map .value).reverse ++ m.stack) := by
  rw [beginCall, pushAll_eq]
  rfl

/-! ## Callbacks and calls -/

section

variable {R : Machine σ → Machine σ → Prop} [Absorbs R]

theorem keeps_takeArguments (f : Symbol) (x : Binding σ) :
    MachineM.Keeps R (takeArguments f x) :=
  .bind Absorbs.trans (keeps_popOnto _ _) fun _ =>
    .bind Absorbs.trans (.modify fun m => Absorbs.plain (.report m rfl)) fun _ =>
      .pure Absorbs.refl _

theorem keeps_balance (f : Symbol) : MachineM.Keeps R (balance f) := by
  -- the number of entries is looked up first; what replaces them depends on the declared result
  refine .bind Absorbs.trans (fun m r m' h => ?_) fun m =>
    .bind Absorbs.trans (keeps_dropEntries _) fun _ => ?_
  · obtain ⟨-, rfl⟩ := Prod.mk.inj h
    exact Absorbs.refl _
  split
  · next k _ => exact .modify fun m => absorbs_pushDefault m k
  · exact .pure Absorbs.refl _

theorem keeps_takeResult (f : Symbol) (kind : Kind) (depth : Nat) :
    MachineM.Keeps R (takeResult f kind depth) := by
  rw [takeResult]
  split
  · exact .pure Absorbs.refl _
  intro m r m' h
  rw [MachineM.get_bind] at h
  split at h
  · obtain ⟨-, rfl⟩ := Prod.mk.inj h
    exact Absorbs.plain (.report m rfl)
  · exact keeps_popValue kind _ _ _ h

end

/-- A usable machine is given a result of the kind that was declared; otherwise nothing changes. -/
theorem giveResult_eq {f : Symbol} {x : Binding σ} {v : Value} {m m' : Machine σ}
    {r : Except Error Unit} (h : giveResult f x v m = (r, m')) :
    (m.ensureUsable = .ok () ∧ v.kind = x.result ∧ r = .ok () ∧ m' = m.pushResult v) ∨
      ∃ e, r = .error e ∧ m' = m := by
  rw [giveResult, MachineM.get_bind, MachineM.lift_bind] at h
  split at h
  · next hu =>
    split at h
    · next hk =>
      obtain ⟨rfl, rfl⟩ := Prod.mk.inj h
      exact .inl ⟨hu, hk, rfl, rfl⟩
    · obtain ⟨rfl, rfl⟩ := Prod.mk.inj h
      exact .inr ⟨_, rfl, rfl⟩
  · obtain ⟨rfl, rfl⟩ := Prod.mk.inj h
    exact .inr ⟨_, rfl, rfl⟩

section

variable {P : Permission σ} {R : Machine σ → Machine σ → Prop} (hR : Governs P R)

include hR

theorem Governs.giveResult {f : Symbol} {x : Binding σ} {v : Value} {m m' : Machine σ}
    {r : Except Error Unit} (hv : P.places m.memory v = true)
    (h : Machine.giveResult f x v m = (r, m')) : R m m' := by
  rcases giveResult_eq h with ⟨-, -, -, rfl⟩ | ⟨e, -, rfl⟩
  · rw [pushResult]
    split
    · exact hR.refl m
    · exact hR.placed hv (.push v)
  · exact hR.refl _

theorem Governs.pushAll (vs : List Value) :
    ∀ m : Machine σ, (∀ v ∈ vs, P.places m.memory v = true) → R m (m.pushAll vs) := by
  induction vs with
  | nil => exact fun m _ => hR.refl m
  | cons v vs ih =>
    intro m hvs
    obtain ⟨hv, hvs⟩ := List.forall_mem_cons.1 hvs
    exact hR.trans (hR.placed hv (.push v)) (ih (m.push v) hvs)

theorem Governs.beginCall {m : Machine σ} (f : Symbol) {args : List Value}
    (hargs : ∀ v ∈ args, P.places m.memory v = true) : R m (m.beginCall f args) :=
  hR.trans (hR.plain (.report m rfl)) (hR.pushAll args _ hargs)

end

/-! ## Memory and instances -/

/-- A script that writes a cell leaves what a host leaves that does. -/
theorem write_eq_store (x : Reference) (v : CellValue) (m : Machine σ) :
    write x v m = Query.store m (m.memory.write m.script m.config.flags x v) := by
  rw [write, MachineM.get_bind]
  cases m.memory.write m.script m.config.flags x v <;> rfl

/-- A write that is accepted leaves a new memory behind; one that is not changes nothing. -/
theorem write_eq {x : Reference} {v : CellValue} {m m' : Machine σ} {r : Except Error Unit}
    (h : write x v m = (r, m')) :
    (∃ memory, m.memory.write m.script m.config.flags x v = .ok memory ∧ r = .ok () ∧
      m' = { m with memory }) ∨ ∃ e, r = .error e ∧ m' = m := by
  rw [write_eq_store] at h
  rcases hm : m.memory.write m.script m.config.flags x v with e | memory
  · rw [hm] at h
    obtain ⟨rfl, rfl⟩ := Prod.mk.inj h
    exact .inr ⟨_, rfl, rfl⟩
  · rw [hm] at h
    obtain ⟨rfl, rfl⟩ := Prod.mk.inj h
    exact .inl ⟨memory, rfl, rfl, rfl⟩

/-- An instance is allocated and reported, or nothing changes. -/
theorem alloc_eq {key : SymbolKey} {tag : InstanceTag} {m m' : Machine σ}
    {r : Except Error Handle} (h : alloc key tag m = (r, m')) :
    (∃ s x memory, m.script.find key = .ok s ∧ m.memory.alloc m.script s tag = .ok (x, memory) ∧
      r = .ok x ∧ m' = ({ m with memory }).report (.allocated s.name tag x.slot)) ∨
      ∃ e, r = .error e ∧ m' = m := by
  rw [alloc, MachineM.get_bind, MachineM.lift_bind] at h
  split at h
  · next s hs =>
    rw [MachineM.lift_bind] at h
    split at h
    · next p hp =>
      obtain ⟨x, memory⟩ := p
      obtain ⟨rfl, rfl⟩ := Prod.mk.inj h
      exact .inl ⟨s, x, memory, hs, hp, rfl, rfl⟩
    · obtain ⟨rfl, rfl⟩ := Prod.mk.inj h
      exact .inr ⟨_, rfl, rfl⟩
  · obtain ⟨rfl, rfl⟩ := Prod.mk.inj h
    exact .inr ⟨_, rfl, rfl⟩

/-- An instance is freed and reported, or the handle was stale and nothing changes. -/
theorem free_eq {x : Handle} {m m' : Machine σ} {r : Except Error Unit}
    (h : free x m = (r, m')) :
    (∃ memory, m.memory.free x = .ok memory ∧ r = .ok () ∧
      m' = (m.released x memory).report (.freed x.symbol x.slot)) ∨
      ∃ e, r = .error e ∧ m' = m := by
  rw [free, MachineM.get_bind, MachineM.lift_bind] at h
  split at h
  · next memory hm =>
    obtain ⟨rfl, rfl⟩ := Prod.mk.inj h
    exact .inl ⟨memory, hm, rfl, rfl⟩
  · obtain ⟨rfl, rfl⟩ := Prod.mk.inj h
    exact .inr ⟨_, rfl, rfl⟩

/-- An instance is marked, or the handle was stale and nothing changes. -/
theorem markInitialized_eq {x : Handle} {m m' : Machine σ} {r : Except Error Unit}
    (h : markInitialized x m = (r, m')) :
    (∃ memory, m.memory.markInitialized x = .ok memory ∧ r = .ok () ∧ m' = { m with memory }) ∨
      ∃ e, r = .error e ∧ m' = m := by
  rw [markInitialized, MachineM.get_bind, MachineM.lift_bind] at h
  split at h
  · next memory hm =>
    obtain ⟨rfl, rfl⟩ := Prod.mk.inj h
    exact .inl ⟨memory, hm, rfl, rfl⟩
  · obtain ⟨rfl, rfl⟩ := Prod.mk.inj h
    exact .inr ⟨_, rfl, rfl⟩

section

variable {R : Machine σ → Machine σ → Prop} [Absorbs R]

/-- A number that is written is no instance. -/
theorem keeps_writeInt (x : Reference) (n : Int32) :
    MachineM.Keeps R (write x ⟨.int, n⟩) := by
  intro m r m' h
  rcases write_eq h with ⟨memory, hm, -, rfl⟩ | ⟨e, -, rfl⟩
  · exact Absorbs.plain (.write (fun y hy => by cases hy) hm)
  · exact Absorbs.refl _

theorem keeps_alloc (key : SymbolKey) (tag : InstanceTag) : MachineM.Keeps R (alloc key tag) := by
  intro m r m' h
  rcases alloc_eq h with ⟨s, x, memory, hs, hm, -, rfl⟩ | ⟨e, -, rfl⟩
  · exact Absorbs.trans (Absorbs.plain (.alloc hs hm)) (Absorbs.plain (.report _ rfl))
  · exact Absorbs.refl _

theorem keeps_markInitialized (x : Handle) : MachineM.Keeps R (markInitialized x) := by
  intro m r m' h
  rcases markInitialized_eq h with ⟨memory, hm, -, rfl⟩ | ⟨e, -, rfl⟩
  · exact Absorbs.plain (.markInitialized hm)
  · exact Absorbs.refl _

end

section

variable {P : Permission σ} {R : Machine σ → Machine σ → Prop} (hR : Governs P R)

include hR

theorem Governs.write {x : Reference} {v : CellValue} {m m' : Machine σ} {r : Except Error Unit}
    (hv : P.places m.memory (v.1.toValue v.2) = true) (h : Machine.write x v m = (r, m')) :
    R m m' := by
  rcases write_eq h with ⟨memory, hm, -, rfl⟩ | ⟨e, -, rfl⟩
  · exact hR.placed hv (.write hm)
  · exact hR.refl _

theorem Governs.free {x : Handle} {m m' : Machine σ} {r : Except Error Unit}
    (hx : P.frees m x = true) (h : Machine.free x m = (r, m')) : R m m' := by
  rcases free_eq h with ⟨memory, hm, -, rfl⟩ | ⟨e, -, rfl⟩
  · exact hR.trans (hR.freed hx hm) (hR.plain (.report _ rfl))
  · exact hR.refl _

/-- An instance whose body is run is live. -/
theorem Governs.beginBody {m : Machine σ} {s : Symbol} {x : Handle} (h : m.checkBody x = .ok s) :
    R m (m.beginBody s x) := by
  obtain ⟨u, -, h⟩ := Except.bind_eq_ok.1 h
  obtain ⟨y, hy, -⟩ := Except.bind_eq_ok.1 h
  have hx := P.places_live (Registry.get_eq_ok.1 hy)
  exact hR.trans (hR.trans (hR.placed hx (.context _)) (hR.placed hx (.setSlot .self _)))
    (hR.plain (.report _ rfl))

theorem Governs.restore {m : Machine σ} {d : Displaced}
    (hc : P.places m.memory (.inst d.context) = true)
    (hs : P.places m.memory (.inst d.self) = true) : R m (m.restore d) :=
  hR.trans (hR.placed hc (.context _)) (hR.placed hs (.setSlot .self _))

end

end Machine

open Machine

variable {σ : Type} {P : Permission σ} {R : Machine σ → Machine σ → Prop}

/-! ## What the host asks for -/

section

variable (hR : Governs P R)

include hR

/-- Whatever the answer to a write is, the machine has the new memory or stays as it is. -/
theorem Machine.Governs.store {m : Machine σ} {x : Except Error Memory}
    (hx : ∀ memory, x = .ok memory → R m { m with memory }) : R m (Query.store m x).2 := by
  rcases x with e | memory
  · exact hR.refl m
  · exact hx memory rfl

/-- The answer to a query that is permitted consists of what is permitted. -/
theorem Machine.Governs.answer {m : Machine σ} {q : Query} (hq : q.permitted P m = true) :
    R m (q.answer m).2 := by
  have := hR.toAbsorbs
  cases q with
  | push v => exact hR.placed hq (.push v)
  | pop k => exact keeps_popValue k m _ _ rfl
  | printStackTrace => exact hR.plain (.report m rfl)
  | alloc key tag => exact keeps_alloc key tag m _ _ rfl
  | free x => exact hR.free hq rfl
  | setGlobal slot x => exact hR.placed hq (.setSlot slot x)
  | write v key index context =>
    refine hR.store fun memory h => ?_
    rcases hr : Memory.reference m.script key index context with e | x
    · simp only [hr, bind, Except.bind, reduceCtorEq] at h
    · simp only [hr, bind, Except.bind] at h
      exact hR.placed hq (.write h)
  | writeField v x member index =>
    exact hR.store fun memory h => hR.placed hq (.writeField h)
  -- the other queries only look
  | _ => exact hR.refl m

/-- A callback that is refused changes nothing; one that is accepted is a plain edit. -/
theorem Machine.Governs.registered {m : Machine σ} {x : Except Error (Machine σ)}
    (hx : ∀ m', x = .ok m' → Plain m m') : R m (Routine.registered m x).2 := by
  rcases x with e | m'
  · exact hR.refl m
  · exact hR.plain (hx m' rfl)

end

end ScriptMachine
