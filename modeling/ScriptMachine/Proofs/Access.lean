import ScriptMachine.Execution.Answer
import ScriptMachine.Proofs.Allocation

/-!
# Reading what was written

A reference leads to a storage: that of a global variable, or the field of an instance at the place
where its class declares the member. Reading and writing look for the storage in their own ways, but
find the same one, and no two references that differ in symbol, element or instance lead to the same
cell. So what is written is read again, and nothing else is seen to change.

* `Memory.lookup` – the storage a reference leads to.
* `Memory.lookup_putAt_global`, `Memory.lookup_putAt_field` – the storages that references lead to
  once one is replaced.
* `Reference.Apart` – whether two references differ in what they name.
* `Machine.store_laws` – what is read after a write.
-/

namespace ScriptMachine

namespace Memory

variable {m m' : Memory} {p : Script} {flags : ExecutionFlags} {s s' : Symbol} {r r' : Reference}
  {st st' : Storage} {place : Place} {k : CellKind} {v : CellValue} {h : Handle} {x : Instance}

/-- The storage that a reference to a symbol leads to. There is none where a member is used without
an instance and that is allowed. -/
def lookup (m : Memory) (p : Script) (flags : ExecutionFlags) (s : Symbol) (r : Reference) :
    Except Error (Option Storage) := do
  match ← m.locate p flags s r.symbol r.context with
  | none => return none
  | some place =>
    match m.storageAt? place, place with
    | some st, _ => return some st
    | none, .global _ => return none
    | none, .field _ x _ => .error (.illegalMemberAccess s.name (p.nameOrIndex x.cls))

/-- What is read of a storage, if there is one. -/
def readStorage (name : String) (k : CellKind) (index : Nat) :
    Option Storage → Except Error k.Content
  | none => .ok k.zero
  | some st => (st.get k index).mapError (CellFault.toError name k index)

/-- Reading is looking a storage up and reading its cell. -/
theorem read_eq_lookup (hs : p.find (.index r.symbol) = .ok s) :
    m.read p flags k r = m.lookup p flags s r >>= readStorage s.name k r.index := by
  rw [read, hs, lookup]
  show (m.locate p flags s r.symbol r.context >>= _) = _
  rw [bind_assoc]
  refine congrArg _ (funext fun place => ?_)
  cases place with
  | none => rfl
  | some place =>
    cases hst : m.storageAt? place with
    | some st => simp only [hst]; rfl
    | none => cases place <;> simp only [hst] <;> rfl

/-- A global variable is looked up by its index. -/
theorem lookup_global (hs : s.isMember = false) :
    m.lookup p flags s r = .ok m.globals[r.symbol.toNat]? := by
  have hlocate : m.locate p flags s r.symbol r.context = .ok (some (.global r.symbol)) :=
    if_neg (by simp [hs])
  rw [lookup, Except.bind_of_ok hlocate]
  cases hst : m.globals[r.symbol.toNat]? with
  | none => simp only [storageAt?, hst]; rfl
  | some st => simp only [storageAt?, hst]; rfl

/-- A member is looked up in the instance that the context refers to, and in its fields only. -/
theorem lookup_member (hs : s.isMember = true) : m.lookup p flags s r =
    match r.context with
    | none =>
      if flags.contains .allowNullInstance then .ok none else .error (.nullInstanceAccess s.name)
    | some h =>
      match m.instances.get? h with
      | none => .error .staleInstance
      | some x =>
        if s.parent = some x.cls then
          match ordinal x.cls r.symbol with
          | .error e => .error e
          | .ok n =>
            match x.fields[n]? with
            | some st => .ok (some st)
            | none => .error (.illegalMemberAccess s.name (p.nameOrIndex x.cls))
        else .error (.illegalMemberAccess s.name (p.nameOrIndex x.cls)) := by
  cases hc : r.context with
  | none =>
    have hlocate : m.locate p flags s r.symbol none =
        if flags.contains .allowNullInstance then .ok none
        else .error (.nullInstanceAccess s.name) := if_pos hs
    rw [lookup, hc, hlocate]
    split
    · rfl
    · rfl
  | some h =>
    rw [lookup, hc]
    cases hx : m.instances.get? h with
    | none =>
      have hlocate : m.locate p flags s r.symbol (some h) = .error .staleInstance := by
        rw [locate, if_pos hs]
        simp only [Registry.get_eq_error.2 hx]
      simp only [hlocate, hx]
      rfl
    | some x =>
      simp only [locate_member hs hx, hx]
      split
      · cases hn : ordinal x.cls r.symbol with
        | error e => rfl
        | ok n =>
          rw [Except.map, Except.bind_of_ok rfl]
          cases hst : x.fields[n]? with
          | none => simp only [storageAt?, hst]
          | some st => simp only [storageAt?, hst]; rfl
      · rfl

/-- The members of a class have places of their own. -/
theorem ordinal_inj {cls i j : UInt32} {n : Nat} (hi : ordinal cls i = .ok n)
    (hj : ordinal cls j = .ok n) : i = j :=
  UInt32.toNat_inj.1 ((ordinal_eq_ok.1 hi).symm.trans (ordinal_eq_ok.1 hj))

/-- A write that succeeds replaces the storage that its reference leads to, if there is one. -/
theorem write_eq_ok (hw : m.write p flags r v = .ok m') :
    ∃ s, p.find (.index r.symbol) = .ok s ∧
      ((m.lookup p flags s r = .ok none ∧ m' = m) ∨
        ∃ place st st', m.locate p flags s r.symbol r.context = .ok (some place) ∧
          m.storageAt? place = some st ∧ st.set r.index v = .ok st' ∧ m' = m.putAt st' place) := by
  obtain ⟨s, hs, hw⟩ := Except.bind_eq_ok.1 hw
  refine ⟨s, hs, ?_⟩
  dsimp only at hw
  split at hw
  · cases hw
  obtain ⟨place, hplace, hw⟩ := Except.bind_eq_ok.1 hw
  rcases place with _ | place
  · refine .inl ⟨?_, (Except.ok.inj hw).symm⟩
    rw [lookup, Except.bind_of_ok hplace]
    rfl
  rcases hst : m.storageAt? place with _ | st
  · cases place with
    | global i =>
      simp only [hst] at hw
      refine .inl ⟨?_, (Except.ok.inj hw).symm⟩
      rw [lookup, Except.bind_of_ok hplace]
      simp only [hst]
      rfl
    | field =>
      simp only [hst] at hw
      cases hw
  · right
    rcases hset : st.set r.index v with e | st'
    · simp only [hst, hset] at hw
      cases hw
    · simp only [hst, hset] at hw
      exact ⟨place, st, st', hplace, hst, hset, (Except.ok.inj hw).symm⟩

/-- Another storage of a global variable is found through the references to the variable only. -/
theorem lookup_putAt_global {i : UInt32} (hst : m.globals[i.toNat]? = some st) (st' : Storage)
    (s' : Symbol) (r' : Reference) :
    (m.putAt st' (.global i)).lookup p flags s' r' = m.lookup p flags s' r' ∨
      (m.lookup p flags s' r' = .ok (some st) ∧
        (m.putAt st' (.global i)).lookup p flags s' r' = .ok (some st') ∧ r'.symbol = i) := by
  by_cases hs' : s'.isMember = true
  · -- no instance changes
    rw [lookup_member hs', lookup_member hs']
    exact .inl rfl
  rw [Bool.not_eq_true] at hs'
  rw [lookup_global hs', lookup_global hs']
  show Except.ok (m.globals.setIfInBounds _ _)[_]? = _ ∨ _
  by_cases hsymbol : r'.symbol = i
  · obtain ⟨hi, -⟩ := Array.getElem?_eq_some_iff.1 hst
    rw [hsymbol]
    exact .inr ⟨congrArg _ hst, congrArg _ (Array.getElem?_setIfInBounds_self_of_lt hi), rfl⟩
  · left
    exact congrArg _ (Array.getElem?_setIfInBounds_ne fun he =>
      hsymbol (UInt32.toNat_inj.1 he).symm)

/-- Another storage of a field is found through the references to the member in this instance
only. -/
theorem lookup_putAt_field {i : UInt32} {n : Nat} (hx : m.instances.get? h = some x)
    (hn : ordinal x.cls i = .ok n) (hst : x.fields[n]? = some st) (st' : Storage) (s' : Symbol)
    (r' : Reference) :
    (m.putAt st' (.field h x n)).lookup p flags s' r' = m.lookup p flags s' r' ∨
      (m.lookup p flags s' r' = .ok (some st) ∧
        (m.putAt st' (.field h x n)).lookup p flags s' r' = .ok (some st') ∧
        r'.symbol = i ∧ ∃ h', r'.context = some h' ∧ h'.tenancy = h.tenancy) := by
  by_cases hs' : s'.isMember = true
  · rw [lookup_member hs', lookup_member hs']
    cases hc' : r'.context with
    | none => exact .inl rfl
    | some h' =>
      by_cases ht : h'.tenancy = h.tenancy
      · have hput : (m.putAt st' (.field h x n)).instances.get? h' =
            some { x with fields := x.fields.setIfInBounds n st' } :=
          (Registry.get?_congr ht).trans (Registry.get?_put hx)
        simp only [hput, Registry.get?_congr ht, hx]
        by_cases hparent : s'.parent = some x.cls
        · simp only [if_pos hparent]
          by_cases hsymbol : r'.symbol = i
          · obtain ⟨hi, -⟩ := Array.getElem?_eq_some_iff.1 hst
            simp only [hsymbol, hn, Array.getElem?_setIfInBounds_self_of_lt hi, hst]
            exact .inr ⟨trivial, trivial, trivial, h', rfl, ht⟩
          · rcases hn' : ordinal x.cls r'.symbol with e | n'
            · exact .inl rfl
            -- another member has another place
            have hne : n ≠ n' := fun he => hsymbol (ordinal_inj hn' (he ▸ hn))
            simp only [Array.getElem?_setIfInBounds_ne hne]
            exact .inl trivial
        · simp only [if_neg hparent]
          exact .inl trivial
      · have hput : (m.putAt st' (.field h x n)).instances.get? h' = m.instances.get? h' :=
          Registry.get?_put_of_ne hx ht
        simp only [hput]
        exact .inl trivial
  · -- no global variable changes
    rw [Bool.not_eq_true] at hs'
    rw [lookup_global hs', lookup_global hs']
    exact .inl rfl

/-- Take a memory in which the storage that a reference leads to is replaced by another, and any
other reference. Either it leads to where it did, or to the same storage, and then it names the same
symbol, and the same instance if the symbol is a member. -/
theorem lookup_putAt (hl : m.locate p flags s r.symbol r.context = .ok (some place))
    (hst : m.storageAt? place = some st) (st' : Storage) (s' : Symbol) (r' : Reference) :
    (m.putAt st' place).lookup p flags s' r' = m.lookup p flags s' r' ∨
      (m.lookup p flags s' r' = .ok (some st) ∧
        (m.putAt st' place).lookup p flags s' r' = .ok (some st') ∧ r'.symbol = r.symbol ∧
        (s.isMember = true → ∃ h h', r.context = some h ∧ r'.context = some h' ∧
          h'.tenancy = h.tenancy)) := by
  rcases eq_of_locate hl with ⟨hs, rfl⟩ | ⟨h, x, n, -, hc, hx, -, hn, rfl⟩
  · rcases lookup_putAt_global hst st' s' r' with hsame | ⟨hold, hnew, hsymbol⟩
    · exact .inl hsame
    · exact .inr ⟨hold, hnew, hsymbol, fun hmember => nomatch hs.symm.trans hmember⟩
  · rcases lookup_putAt_field hx hn hst st' s' r' with
      hsame | ⟨hold, hnew, hsymbol, h', hc', htenancy⟩
    · exact .inl hsame
    · exact .inr ⟨hold, hnew, hsymbol, fun _ => ⟨h, h', hc, hc', htenancy⟩⟩

/-- The reference that the storage was found through leads to the new one. -/
theorem lookup_putAt_self (hl : m.locate p flags s r.symbol r.context = .ok (some place))
    (hst : m.storageAt? place = some st) :
    (m.putAt st' place).lookup p flags s r = .ok (some st') := by
  rcases eq_of_locate hl with ⟨hs, rfl⟩ | ⟨h, x, n, hs, hc, hx, hparent, hn, rfl⟩
  · obtain ⟨hi, -⟩ := Array.getElem?_eq_some_iff.1 hst
    rw [lookup_global hs]
    exact congrArg _ (Array.getElem?_setIfInBounds_self_of_lt hi)
  · obtain ⟨hi, -⟩ := Array.getElem?_eq_some_iff.1 hst
    have hput : (m.putAt st' (.field h x n)).instances.get? h =
        some { x with fields := x.fields.setIfInBounds n st' } := Registry.get?_put hx
    rw [lookup_member hs]
    simp only [hc, hput, if_pos hparent, hn, Array.getElem?_setIfInBounds_self_of_lt hi]

/-- A reference that leads to no storage is to a member without an instance. -/
theorem eq_of_lookup_none (hi : r.symbol.toNat < m.globals.size)
    (hl : m.lookup p flags s r = .ok none) :
    s.isMember = true ∧ r.context = none ∧ flags.contains .allowNullInstance = true := by
  by_cases hs : s.isMember = true
  · refine ⟨hs, ?_⟩
    rw [lookup_member hs] at hl
    split at hl
    · next hc =>
      split at hl
      · next hnull => exact ⟨hc, hnull⟩
      · cases hl
    · split at hl
      · cases hl
      · split at hl
        · split at hl
          · cases hl
          · split at hl <;> cases hl
        · cases hl
  · rw [Bool.not_eq_true] at hs
    rw [lookup_global hs, Array.getElem?_eq_getElem hi] at hl
    cases hl

end Memory

/-- Whether two references do not lead to the same cell, since they differ in symbol or element, or
are to a member of different instances. -/
def Reference.Apart (p : Script) (r r' : Reference) : Prop :=
  r'.symbol ≠ r.symbol ∨ r'.index ≠ r.index ∨
    (∃ s, p.symbolByIndex? r.symbol = some s ∧ s.isMember = true) ∧
      ∀ h h', r.context = some h → r'.context = some h' → h'.tenancy ≠ h.tenancy

namespace Memory

variable {m m' : Memory} {p : Script} {flags : ExecutionFlags} {s : Symbol} {r r' : Reference}
  {k : CellKind} {v : CellValue}

/-- What was written through a reference that leads to a storage is read again. -/
theorem read_write_self (hw : m.write p flags r v = .ok m') (hs : p.find (.index r.symbol) = .ok s)
    (hl : m.lookup p flags s r ≠ .ok none) : m'.read p flags v.1 r = .ok v.2 := by
  obtain ⟨s₀, hs₀, ⟨hnone, -⟩ | ⟨place, st, st', hlocate, hst, hset, rfl⟩⟩ := write_eq_ok hw
  · obtain rfl := Except.ok.inj (hs.symm.trans hs₀)
    exact absurd hnone hl
  · rw [read_eq_lookup hs₀, lookup_putAt_self hlocate hst]
    exact congrArg (Except.mapError _) (Storage.get_set_self hset)

/-- Through a reference to another cell, or under another kind, the same is read as before. -/
theorem read_write_of_apart (hw : m.write p flags r v = .ok m') (hr : r.Apart p r' ∨ k ≠ v.1) :
    m'.read p flags k r' = m.read p flags k r' := by
  obtain ⟨s, hs, ⟨-, rfl⟩ | ⟨place, st, st', hlocate, hst, hset, rfl⟩⟩ := write_eq_ok hw
  · rfl
  cases hs' : p.find (.index r'.symbol) with
  | error e => rw [read, read, hs']; rfl
  | ok s' =>
    rw [read_eq_lookup hs', read_eq_lookup hs']
    rcases lookup_putAt hlocate hst st' s' r' with
      hsame | ⟨hold, hnew, hsymbol, htenancy⟩
    · rw [hsame]
    · -- the storage is the same, so the references differ in the element
      have hne : k ≠ v.1 ∨ r'.index ≠ r.index := by
        rcases hr with (hne | hne | ⟨⟨s₀, hs₀, hm⟩, hne⟩) | hk
        · exact absurd hsymbol hne
        · exact .inr hne
        · rw [Script.find_index_eq_ok, hs₀] at hs
          obtain ⟨h, h', hc, hc', ht⟩ := htenancy (Option.some.inj hs ▸ hm)
          exact absurd ht (hne h h' hc hc')
        · exact .inl hk
      rw [hold, hnew]
      exact congrArg (Except.mapError _) (Storage.get_set_of_ne hset hne)

end Memory

namespace Machine

variable {σ : Type} {m : Machine σ}

/-- Whether a write is to a member without an instance, where this is allowed. -/
def Drops (m : Machine σ) (r : Reference) : Prop :=
  r.context = none ∧ m.config.flags.contains .allowNullInstance = true ∧
    ∃ s, m.script.symbolByIndex? r.symbol = some s ∧ s.isMember = true

/-- Such a write leaves the memory as it is, if it is not refused. -/
theorem eq_of_write_of_drops {memory : Memory} {r : Reference} {v : CellValue} (hd : m.Drops r)
    (hw : m.memory.write m.script m.config.flags r v = .ok memory) : memory = m.memory := by
  obtain ⟨hc, -, s, hs, hm⟩ := hd
  obtain ⟨s₀, hs₀, ⟨-, rfl⟩ | ⟨place, st, st', hlocate, -⟩⟩ := Memory.write_eq_ok hw
  · rfl
  · rw [Script.find_index_eq_ok, hs] at hs₀
    obtain rfl := Option.some.inj hs₀
    rcases Memory.eq_of_locate hlocate with ⟨hs, -⟩ | ⟨h, x, n, -, hc', -⟩
    · cases hs.symm.trans hm
    · cases hc.symm.trans hc'

/-- Every symbol of a machine that runs a loaded script has a global storage. -/
theorem Reachable.size_globals (hm : Reachable m) :
    m.memory.globals.size = m.script.symbols.size := by
  obtain ⟨enc, bytes, p, c, -, hev⟩ := hm
  rw [hev.size_globals, hev.script_eq]
  exact Array.size_map

/-- What a write answers, and what it leaves. -/
theorem answer_write_eq {v : CellValue} {key : SymbolKey} {index : Nat} {context : Option Handle}
    {reply : Except Error Unit} {m' : Machine σ}
    (hw : Query.answer m (.write v key index context) = (reply, m')) :
    (∃ e, reply = .error e ∧ m' = m) ∨
      ∃ r memory, Memory.reference m.script key index context = .ok r ∧
        m.memory.write m.script m.config.flags r v = .ok memory ∧ reply = .ok () ∧
        m' = { m with memory } := by
  change Query.store m (Memory.reference m.script key index context >>= fun r =>
    m.memory.write m.script m.config.flags r v) = (reply, m') at hw
  cases hr : Memory.reference m.script key index context with
  | error e =>
    rw [hr] at hw
    obtain ⟨rfl, rfl⟩ := Prod.mk.inj hw
    exact .inl ⟨e, rfl, rfl⟩
  | ok r =>
    rw [hr, Except.bind_of_ok rfl] at hw
    cases hmem : m.memory.write m.script m.config.flags r v with
    | error e =>
      rw [hmem] at hw
      obtain ⟨rfl, rfl⟩ := Prod.mk.inj hw
      exact .inl ⟨e, rfl, rfl⟩
    | ok memory =>
      rw [hmem] at hw
      obtain ⟨rfl, rfl⟩ := Prod.mk.inj hw
      exact .inr ⟨r, memory, rfl, hmem, rfl, rfl⟩

/-- Take any machine that runs a loaded script, and let the host write a value of any kind through
any key, index and context. A write that fails or is dropped leaves the machine as it is. Any other
write is read again through the same key, index and context, and is not seen through a reference to
another cell, or under another kind. -/
theorem store_laws (hm : Reachable m) (v : CellValue) (key : SymbolKey) (index : Nat)
    (context : Option Handle) {reply : Except Error Unit} {m' : Machine σ}
    (hw : Query.answer m (.write v key index context) = (reply, m')) :
    (∀ e, reply = .error e → m' = m) ∧
    ∀ r, Memory.reference m.script key index context = .ok r →
      (m.Drops r → m' = m) ∧
      (reply = .ok () → ¬ m.Drops r →
        (Query.answer m' (.read v.1 key index context)).1 = .ok v.2 ∧
        ∀ k key' index' context',
          (∀ r', Memory.reference m.script key' index' context' = .ok r' →
            r.Apart m.script r' ∨ k ≠ v.1) →
          (Query.answer m' (.read k key' index' context')).1 =
            (Query.answer m (.read k key' index' context')).1) := by
  rcases answer_write_eq hw with ⟨e, rfl, rfl⟩ | ⟨r₀, memory, hr₀, hmem, rfl, rfl⟩
  · exact ⟨fun _ _ => rfl, fun r hr => ⟨fun _ => rfl, nofun⟩⟩
  refine ⟨nofun, fun r hr => ?_⟩
  obtain rfl := Except.ok.inj (hr₀.symm.trans hr)
  refine ⟨fun hd => ?_, fun _ hd => ⟨?_, fun k key' index' context' happart => ?_⟩⟩
  · rw [eq_of_write_of_drops hd hmem]
  · show (Memory.reference m.script key index context >>= fun r =>
      memory.read m.script m.config.flags v.1 r) = .ok v.2
    rw [Except.bind_of_ok hr]
    obtain ⟨s, hs, -⟩ := Memory.write_eq_ok hmem
    refine Memory.read_write_self hmem hs fun hnone => hd ?_
    -- the symbol has a storage, unless it is a member
    have hfound := Script.find_index_eq_ok.1 hs
    have hi : r₀.symbol.toNat < m.memory.globals.size := by
      rw [hm.size_globals]
      exact (Array.getElem?_eq_some_iff.1 hfound).1
    obtain ⟨hmember, hc, hnull⟩ := Memory.eq_of_lookup_none hi hnone
    exact ⟨hc, hnull, s, hfound, hmember⟩
  · show (Memory.reference m.script key' index' context' >>= fun r =>
      memory.read m.script m.config.flags k r) =
      (Memory.reference m.script key' index' context' >>= fun r =>
        m.memory.read m.script m.config.flags k r)
    cases hr' : Memory.reference m.script key' index' context' with
    | error e => rfl
    | ok r' =>
      rw [Except.bind_of_ok rfl, Except.bind_of_ok rfl]
      exact Memory.read_write_of_apart hmem (happart r' hr')

/-- A member of an instance is written, read again, and not seen without the instance. -/
theorem store_laws_figure :
    ∃ m', Reachable figureHeld ∧
      Query.answer figureHeld (.write ⟨.int, 5⟩ (.index 1) 0 (some figureHandle)) = (.ok (), m') ∧
      (Query.answer m' (.read .int (.index 1) 0 (some figureHandle))).1 = .ok 5 ∧
      (Query.answer m' (.read .int (.index 1) 0 none)).1 =
        (Query.answer figureHeld (.read .int (.index 1) 0 none)).1 := by
  have hw : Query.answer figureHeld (.write ⟨.int, 5⟩ (.index 1) 0 (some figureHandle)) =
      (.ok (), (Query.answer figureHeld (.write ⟨.int, 5⟩ (.index 1) 0 (some figureHandle))).2) :=
    Prod.ext rfl rfl
  obtain ⟨-, hlaws⟩ := store_laws reachable_figureHeld ⟨.int, 5⟩ (.index 1) 0 (some figureHandle) hw
  obtain ⟨-, hread⟩ := hlaws ⟨1, 0, some figureHandle⟩ rfl
  obtain ⟨hself, hothers⟩ := hread rfl fun hd => nomatch hd.1
  refine ⟨_, reachable_figureHeld, hw, hself, hothers .int (.index 1) 0 none fun r' hr' => .inl ?_⟩
  obtain rfl := Except.ok.inj hr'
  exact .inr (.inr ⟨⟨_, rfl, rfl⟩, fun h h' _ hc => nomatch hc⟩)

end Machine

end ScriptMachine
