import ScriptMachine.Proofs.Instruction

/-!
# Machines that mirror each other

Two machines that run the same script may differ in what the script does not depend on: in the
bodies that were active before it came to run, in the log, and in the trace of an error. They may
also differ in a configuration that one of them relaxes, as long as nothing is refused because of
it. The same operation then has the same result on both, and leaves machines that mirror each other
again.

* `Config.RelaxedBy` – whether a configuration relaxes another one.
* `Terms` – the two ways to compare machines.
* `Machine.Mirrors` – whether one machine mirrors another.
* `MachineM.Mirrors` – whether an operation does the same to such machines.
* `Machine.mirrors_execute` – executing an instruction does.
-/

namespace ScriptMachine

/-! ## Configurations -/

/-- Whether a configuration is relaxed by another one: that one has all of its flags, and no lower
limit. -/
structure Config.RelaxedBy (c c' : Config) : Prop where
  flags : c'.flags.contains c.flags = true
  instances : c.maxInstances ≤ c'.maxInstances
  depth : c.maxCallDepth ≤ c'.maxCallDepth

/-- A flag in a set is in every set that contains it. -/
theorem ExecutionFlags.contains_trans {a b f : ExecutionFlags} (h : b.contains a = true)
    (hf : a.contains f = true) : b.contains f = true := by
  simp only [contains, beq_iff_eq] at h hf ⊢
  rw [← hf, ← UInt32.and_assoc, h]

/-! ## Memories -/

namespace Memory

variable {m n : Memory} {p : Script} {flags flags' : ExecutionFlags}

/-- The memory with room for another number of instances. -/
def withLimit (m : Memory) (limit : Nat) : Memory :=
  { m with instances := { m.instances with limit } }

/-- What is located is located with more flags as well. -/
theorem locate_relaxed (hflags : flags'.contains flags = true) {s : Symbol} {i : UInt32}
    {context : Option Handle} {place : Option Place}
    (h : m.locate p flags s i context = .ok place) : m.locate p flags' s i context = .ok place := by
  unfold locate at h ⊢
  split
  · next hm =>
    rw [if_pos hm] at h
    cases context with
    | some x => exact h
    | none =>
      simp only at h ⊢
      split at h
      · next hf => rwa [if_pos (ExecutionFlags.contains_trans hflags hf)]
      · cases h
  · next hm => rwa [if_neg hm] at h

/-- What is read is read with more flags and more room as well. -/
theorem read_relaxed (hflags : flags'.contains flags = true) (limit : Nat) {k : CellKind}
    {r : Reference} {c : k.Content} (h : m.read p flags k r = .ok c) :
    (m.withLimit limit).read p flags' k r = .ok c := by
  obtain ⟨s, hs, h⟩ := Except.bind_eq_ok.1 h
  obtain ⟨place, hplace, h⟩ := Except.bind_eq_ok.1 h
  have hplace : (m.withLimit limit).locate p flags' s r.symbol r.context = .ok place :=
    locate_relaxed hflags hplace
  refine (Except.bind_of_ok hs).trans ((Except.bind_of_ok hplace).trans ?_)
  rcases place with _ | _ | _ <;> exact h

/-- What is written is written with more flags and more room as well. -/
theorem write_relaxed (hflags : flags'.contains flags = true) (limit : Nat) {r : Reference}
    {v : CellValue} (h : m.write p flags r v = .ok n) :
    (m.withLimit limit).write p flags' r v = .ok (n.withLimit limit) := by
  obtain ⟨s, hs, h⟩ := Except.bind_eq_ok.1 h
  dsimp only at h
  split at h
  · cases h
  next hconst =>
  obtain ⟨place, hplace, h⟩ := Except.bind_eq_ok.1 h
  -- the check for a constant comes before the member is located, and asks for a flag as well
  have hconst : ¬ (s.isConst && !flags'.contains .ignoreConst) = true := by
    simp only [Bool.and_eq_true, Bool.not_eq_true', not_and, Bool.not_eq_false] at hconst ⊢
    exact fun hs => ExecutionFlags.contains_trans hflags (hconst hs)
  have hplace : (m.withLimit limit).locate p flags' s r.symbol r.context = .ok place :=
    locate_relaxed hflags hplace
  refine (Except.bind_of_ok hs).trans ?_
  dsimp only
  rw [if_neg hconst]
  refine (Except.bind_of_ok hplace).trans ?_
  rcases place with _ | place
  · rw [Except.ok.inj h]
    rfl
  have hstorage : (m.withLimit limit).storageAt? place = m.storageAt? place := by
    cases place <;> rfl
  simp only [hstorage]
  rcases hst : m.storageAt? place with _ | st
  · cases place with
    | global =>
      simp only [hst] at h ⊢
      rw [← Except.ok.inj h]
      rfl
    | field =>
      simp only [hst] at h
      cases h
  rcases hset : st.set r.index v with e | st'
  · simp only [hst, hset] at h
    cases h
  · simp only [hst, hset] at h ⊢
    rw [← Except.ok.inj h]
    cases place <;> rfl

end Memory

/-! ## Registrations -/

/-- Whether all callbacks that are registered have a property. -/
structure Registrations.All {σ : Type} (P : Routine σ → Prop) (r : Registrations σ) : Prop where
  externals : ∀ i x args, r.externals i = some x → P (x.callback args)
  overrides : ∀ i x args, r.overrides i = some x → P (x.callback args)
  fallback : ∀ g f, r.fallback = some g → P (g f)

/-! ## Terms -/

/-- How two machines are compared: with one configuration and the callbacks that have a property,
where errors are compared too, stack traces if wanted, and logs are not; or with a configuration
that relaxes the other one and without callbacks, where only operations that succeed are
compared. -/
inductive Terms (σ : Type) where
  | strict (traced : Bool) (callback : Routine σ → Prop)
  | relaxed (c : Config)

/-- The terms with one configuration on which stack traces are not compared. -/
abbrev Terms.equal {σ : Type} (callback : Routine σ → Prop) : Terms σ := .strict false callback

namespace Terms

variable {σ ε ε' α β : Type}

/-- The configuration of the second machine. -/
def config : Terms σ → Config → Config
  | strict .., c => c
  | relaxed c, _ => c

/-- The memory of the second machine. -/
def memory : Terms σ → Memory → Memory
  | strict .., m => m
  | relaxed c, m => m.withLimit c.maxInstances

/-- Which callbacks may be registered. -/
def callback : Terms σ → Routine σ → Prop
  | strict _ P => P
  | relaxed _ => fun _ => False

/-- Which configurations the first machine may have. -/
def Allows : Terms σ → Config → Prop
  | strict .., _ => True
  | relaxed c', c => c.RelaxedBy c'

/-- Whether the logs of both machines may be so. -/
def Logs : Terms σ → List LogEvent → List LogEvent → Prop
  | strict .., _, _ => True
  | relaxed _, log, log' => log' = log

/-- Whether stack traces are compared. -/
def Traced : Terms σ → Prop
  | strict traced _ => traced = true
  | relaxed _ => False

/-- Whether an outcome is compared. -/
def Counts : Terms σ → Except ε α → Prop
  | strict .., _ => True
  | relaxed _, r => ∃ a, r = .ok a

variable {T : Terms σ}

theorem Logs.cons {log log' : List LogEvent} (h : T.Logs log log') (e : LogEvent) :
    T.Logs (e :: log) (e :: log') := by
  cases T with
  | strict => trivial
  | relaxed => exact congrArg (e :: ·) h

/-- Success is compared on any terms. -/
theorem counts_ok (a : α) : T.Counts (.ok a : Except ε α) := by
  cases T with
  | strict => trivial
  | relaxed => exact ⟨a, rfl⟩

/-- Errors are compared only where configurations are equal. -/
theorem Counts.exists_strict {e : ε} (h : T.Counts (.error e : Except ε α)) :
    ∃ traced P, T = strict traced P := by
  cases T with
  | strict traced P => exact ⟨traced, P, rfl⟩
  | relaxed =>
    obtain ⟨a, ha⟩ := h
    cases ha

theorem Counts.error {e : ε} (h : T.Counts (.error e : Except ε α)) (e' : ε') :
    T.Counts (.error e' : Except ε' β) := by
  obtain ⟨traced, P, rfl⟩ := h.exists_strict
  trivial

theorem memory_bind (T : Terms σ) (m : Memory) (i : UInt32) (h : Option Handle) :
    T.memory (m.bind i h) = (T.memory m).bind i h := by
  cases T <;> rfl

theorem bound_memory (T : Terms σ) (m : Memory) (i : UInt32) :
    (T.memory m).bound i = m.bound i := by
  cases T <;> rfl

theorem get_memory (T : Terms σ) (m : Memory) (h : Handle) :
    (T.memory m).instances.get h = m.instances.get h := by
  cases T <;> rfl

end Terms

/-! ## Machines -/

namespace Machine

variable {σ : Type}

/-- Whether a machine mirrors another one. It does the same as the other one, in bodies that were
entered by the script on top of `t'`, and by the other one on top of `t`. -/
structure Mirrors (T : Terms σ) (t t' : List Frame) (m m' : Machine σ) : Prop where
  script : m'.script = m.script
  config : m'.config = T.config m.config
  allows : T.Allows m.config
  stack : m'.stack = m.stack
  memory : m'.memory = T.memory m.memory
  registrations : m'.registrations = m.registrations
  callbacks : m.registrations.All T.callback
  pc : m'.pc = m.pc
  context : m'.context = m.context
  -- the traces kept with an error may differ, since they list all active bodies
  usable : m'.isPoisoned = m.isPoisoned
  -- if they are compared, the bodies below must be the same
  traces : T.Traced → t' = t ∧ m'.poison = m.poison
  log : T.Logs m.log m'.log
  depth : t'.length = t.length
  frames : ∃ inner, m.frames = inner ++ t ∧ m'.frames = inner ++ t' ∧
    ∀ f ∈ inner, f.hostEntry = false

namespace Mirrors

variable {T : Terms σ} {t t' : List Frame} {m m' : Machine σ} (h : m.Mirrors T t t' m')

include h

/-! ### What both machines find -/

theorem length_frames : m'.frames.length = m.frames.length := by
  obtain ⟨inner, hm, hm', -⟩ := h.frames
  rw [hm, hm', List.length_append, List.length_append, h.depth]

theorem bound (i : UInt32) : m'.memory.bound i = m.memory.bound i := by
  rw [h.memory, T.bound_memory]

/-- Machines whose traces are compared have the same bodies active. -/
theorem frames_eq (ht : T.Traced) : m'.frames = m.frames := by
  obtain ⟨inner, hm, hm', -⟩ := h.frames
  rw [hm, hm', (h.traces ht).1]

theorem liveTrace (ht : T.Traced) : m'.liveTrace = m.liveTrace := by
  rw [Machine.liveTrace, Machine.liveTrace, h.frames_eq ht, h.pc, traceFrom_congr h.script]

theorem slotIndex (slot : GlobalSlot) : m'.slotIndex slot = m.slotIndex slot := by
  rw [Machine.slotIndex, Machine.slotIndex, h.script]

theorem ensureUsable : m'.ensureUsable = m.ensureUsable := by
  rw [Machine.ensureUsable, Machine.ensureUsable, h.usable]

theorem read {k : CellKind} {r : Reference} (hr : T.Counts (m.read k r)) :
    m'.read k r = m.read k r := by
  rw [Machine.read, Machine.read, h.script, h.config, h.memory]
  cases T with
  | strict => rfl
  | relaxed c =>
    obtain ⟨a, ha⟩ := hr
    exact (Memory.read_relaxed h.allows.flags _ ha).trans ha.symm

theorem content? {k : CellKind} {e : Entry} {r : Except Error k.Content}
    (hc : m.content? k e = some r) (hr : T.Counts r) : m'.content? k e = some r := by
  cases e with
  | value | immediate => exact hc
  | reference x =>
    obtain rfl := Option.some.inj hc
    exact congrArg some (h.read hr)

/-! ### What both machines may do -/

theorem withStack (s : List Entry) : (m.withStack s).Mirrors T t t' (m'.withStack s) :=
  { h with stack := rfl }

theorem pushEntry (e : Entry) : (m.pushEntry e).Mirrors T t t' (m'.pushEntry e) :=
  { h with stack := congrArg (e :: ·) h.stack }

theorem pushResult (v : Value) : (m.pushResult v).Mirrors T t t' (m'.pushResult v) := by
  rw [Machine.pushResult, Machine.pushResult]
  split
  · exact h
  · exact h.pushEntry _

theorem report (e : LogEvent) : (m.report e).Mirrors T t t' (m'.report e) :=
  { h with log := h.log.cons e }

theorem jump (target : UInt32) :
    ({ m with pc := target } : Machine σ).Mirrors T t t' { m' with pc := target } :=
  { h with pc := rfl }

theorem setContext (x : Option Handle) :
    ({ m with context := x } : Machine σ).Mirrors T t t' { m' with context := x } :=
  { h with context := rfl }

theorem setMemory (memory : Memory) :
    ({ m with memory } : Machine σ).Mirrors T t t' { m' with memory := T.memory memory } :=
  { h with memory := rfl }

theorem setSlot (slot : GlobalSlot) (x : Option Handle) :
    (m.setSlot slot x).Mirrors T t t' (m'.setSlot slot x) := by
  have hm := h.setMemory (m.memory.bind (m.slotIndex slot) x)
  rw [T.memory_bind, ← h.memory] at hm
  rwa [Machine.setSlot, Machine.setSlot, h.slotIndex]

theorem fetched (i : Instruction) : (m.fetched i).Mirrors T t t' (m'.fetched i) :=
  { h.report (.executed i) with pc := rfl }

theorem entered (function : Option UInt32) (target : UInt32) :
    (m.entered function target false).Mirrors T t t' (m'.entered function target false) := by
  obtain ⟨inner, hm, hm', hi⟩ := h.frames
  refine { h with pc := rfl, frames := ⟨⟨function, m.pc, m.context, false⟩ :: inner, ?_, ?_, ?_⟩ }
  · exact congrArg (_ :: ·) hm
  · rw [Machine.entered, h.pc, h.context, hm']
    rfl
  · exact List.forall_mem_cons.2 ⟨rfl, hi⟩

/-- Machines become unusable together. -/
theorem poisonWith {traced : Bool} {P : Routine σ → Prop} (hT : T = .strict traced P) (e : Error) :
    (m.poisonWith e).Mirrors T t t' (m'.poisonWith e) := by
  subst hT
  have hu := h.usable
  rcases hp : m.poison with _ | p
  · rcases hp' : m'.poison with _ | p'
    · have hm : m.poisonWith e = { m with
          poison := some m.liveTrace
          stack := []
          log := .stackTrace m.liveTrace :: .fatal e :: m.log } := by
        rw [Machine.poisonWith, hp]
      have hm' : m'.poisonWith e = { m' with
          poison := some m'.liveTrace
          stack := []
          log := .stackTrace m'.liveTrace :: .fatal e :: m'.log } := by
        rw [Machine.poisonWith, hp']
      rw [hm, hm']
      exact { h with
        stack := rfl
        usable := rfl
        traces := fun ht => ⟨(h.traces ht).1, congrArg some (h.liveTrace ht)⟩
        log := trivial }
    · rw [isPoisoned, isPoisoned, hp, hp'] at hu
      cases hu
  · rcases hp' : m'.poison with _ | p'
    · rw [isPoisoned, isPoisoned, hp, hp'] at hu
      cases hu
    · have hne : m.poison ≠ none := by simp [hp]
      have hne' : m'.poison ≠ none := by simp [hp']
      rwa [poisonWith_of_poison hne, poisonWith_of_poison hne']

end Mirrors

end Machine

/-! ## Operations -/

namespace MachineM

variable {σ α β : Type} {T : Terms σ}

/-- Whether an operation does the same to a machine and to one that mirrors it. -/
def Mirrors (T : Terms σ) (x : MachineM σ α) : Prop :=
  ∀ ⦃t t' m m' r n⦄, m.Mirrors T t t' m' → x m = (r, n) → T.Counts r →
    ∃ n', x m' = (r, n') ∧ n.Mirrors T t t' n'

namespace Mirrors

protected theorem pure (a : α) : Mirrors T (pure a : MachineM σ α) := by
  intro t t' m m' r n h hx _
  obtain ⟨rfl, rfl⟩ := Prod.mk.inj hx
  exact ⟨m', rfl, h⟩

protected theorem throw (e : Error) : Mirrors T (throw e : MachineM σ α) := by
  intro t t' m m' r n h hx _
  obtain ⟨rfl, rfl⟩ := Prod.mk.inj hx
  exact ⟨m', rfl, h⟩

protected theorem bind {x : MachineM σ α} {f : α → MachineM σ β} (hx : Mirrors T x)
    (hf : ∀ a, Mirrors T (f a)) : Mirrors T (x >>= f) := by
  intro t t' m m' r n h hb hr
  rcases bind_eq.1 hb with ⟨a, u, h₁, h₂⟩ | ⟨e, h₁, rfl⟩
  · obtain ⟨u', hx', hu⟩ := hx h h₁ (Terms.counts_ok a)
    obtain ⟨n', hf', hn⟩ := hf a hu h₂ hr
    exact ⟨n', bind_eq.2 (.inl ⟨a, u', hx', hf'⟩), hn⟩
  · obtain ⟨n', hx', hn⟩ := hx h h₁ (hr.error e)
    exact ⟨n', bind_eq.2 (.inr ⟨e, hx', rfl⟩), hn⟩

protected theorem modify {f : Machine σ → Machine σ}
    (hf : ∀ {t t' m m'}, m.Mirrors T t t' m' → (f m).Mirrors T t t' (f m')) :
    Mirrors T (modify f : MachineM σ PUnit) := by
  intro t t' m m' r n h hx _
  obtain ⟨rfl, rfl⟩ := Prod.mk.inj hx
  exact ⟨f m', rfl, hf h⟩

/-- What both machines find decides how both go on. -/
protected theorem get {g : Machine σ → β} {f : β → MachineM σ α}
    (hg : ∀ {t t' m m'}, m.Mirrors T t t' m' → g m' = g m) (hf : ∀ b, Mirrors T (f b)) :
    Mirrors T (get >>= fun m => f (g m)) := by
  intro t t' m m' r n h hx hr
  rw [get_bind] at hx ⊢
  rw [hg h]
  exact hf _ h hx hr

/-- What is checked of both machines, if it counts, decides how both go on. -/
protected theorem check {g : Machine σ → Except Error β} {f : β → MachineM σ α}
    (hg : ∀ {t t' m m'}, m.Mirrors T t t' m' → T.Counts (g m) → g m' = g m)
    (hf : ∀ b, Mirrors T (f b)) :
    Mirrors T (get >>= fun m => (liftM (g m) : MachineM σ β) >>= f) := by
  intro t t' m m' r n h hx hr
  rw [get_bind, lift_bind] at hx ⊢
  rcases hm : g m with e | b
  · rw [hm] at hx
    obtain ⟨rfl, rfl⟩ := Prod.mk.inj hx
    have hc : T.Counts (g m) := by
      rw [hm]
      exact hr.error e
    rw [hg h hc, hm]
    exact ⟨m', rfl, h⟩
  · rw [hm] at hx
    have hc : T.Counts (g m) := by
      rw [hm]
      exact Terms.counts_ok b
    rw [hg h hc, hm]
    exact hf b h hx hr

end Mirrors

end MachineM

namespace Machine

open MachineM

variable {σ : Type} {T : Terms σ}

/-! ### The evaluation stack -/

/-- Popping an entry that is there. -/
theorem pop_cons {k : CellKind} {m : Machine σ} {e : Entry} {rest : List Entry}
    (hs : m.stack = e :: rest) :
    pop k m =
      match m.content? k e with
      | some r => (r, m.withStack rest)
      | none => (.error (.stackTypeMismatch (.value k.kind) e.kind),
          (m.withStack rest).poisonWith (.stackTypeMismatch (.value k.kind) e.kind)) := by
  have hc : { m with stack := rest }.content? k e = m.content? k e := by cases e <;> rfl
  simp only [pop, hs, hc]
  cases m.content? k e <;> rfl

/-- The kind of an entry decides whether it can serve a kind, whatever the machine. -/
theorem content?_eq_none {k : CellKind} {e : Entry} {m : Machine σ} (hc : m.content? k e = none)
    (m' : Machine σ) : m'.content? k e = none := by
  cases e with
  | value | immediate => exact hc
  | reference => cases hc

theorem mirrors_pop (k : CellKind) : MachineM.Mirrors T (pop k) := by
  intro t t' m m' r n h hx hr
  rcases hs : m.stack with _ | ⟨e, rest⟩
  · simp only [pop, hs] at hx
    obtain ⟨rfl, rfl⟩ := Prod.mk.inj hx
    exact ⟨m', by simp only [pop, h.stack, hs], h⟩
  rw [pop_cons hs] at hx
  rw [pop_cons (h.stack.trans hs)]
  rcases hc : m.content? k e with _ | s
  · -- the entry is of another kind, whatever the configuration: both machines become unusable
    rw [hc] at hx
    obtain ⟨rfl, rfl⟩ := Prod.mk.inj hx
    obtain ⟨traced, P, hT⟩ := hr.exists_strict
    rw [content?_eq_none hc m']
    exact ⟨_, rfl, (h.withStack rest).poisonWith hT _⟩
  · rw [hc] at hx
    obtain ⟨rfl, rfl⟩ := Prod.mk.inj hx
    rw [h.content? hc hr]
    exact ⟨_, rfl, h.withStack rest⟩

theorem mirrors_popReference : MachineM.Mirrors T (popReference (σ := σ)) := by
  intro t t' m m' r n h hx hr
  rcases hs : m.stack with _ | ⟨e, rest⟩
  · simp only [popReference, hs] at hx
    obtain ⟨rfl, rfl⟩ := Prod.mk.inj hx
    exact ⟨m', by simp only [popReference, h.stack, hs], h⟩
  simp only [popReference, hs] at hx
  simp only [popReference, h.stack, hs]
  cases e with
  | reference x =>
    obtain ⟨rfl, rfl⟩ := Prod.mk.inj hx
    exact ⟨_, rfl, h.withStack rest⟩
  | value | immediate =>
    obtain ⟨rfl, rfl⟩ := Prod.mk.inj hx
    obtain ⟨traced, P, hT⟩ := hr.exists_strict
    exact ⟨_, rfl, (h.withStack rest).poisonWith hT _⟩

theorem mirrors_popEntry : MachineM.Mirrors T (popEntry (σ := σ)) := by
  intro t t' m m' r n h hx _
  rcases hs : m.stack with _ | ⟨e, rest⟩
  · simp only [popEntry, hs] at hx
    obtain ⟨rfl, rfl⟩ := Prod.mk.inj hx
    exact ⟨m', by simp only [popEntry, h.stack, hs], h⟩
  · simp only [popEntry, hs] at hx
    obtain ⟨rfl, rfl⟩ := Prod.mk.inj hx
    exact ⟨_, by simp only [popEntry, h.stack, hs]; rfl, h.withStack rest⟩

theorem mirrors_popValue (k : Kind) : MachineM.Mirrors T (popValue (σ := σ) k) := by
  rw [popValue]
  split
  · exact .bind (mirrors_pop _) fun _ => .pure _
  · exact .pure _

theorem mirrors_popOnto (ks : List Kind) :
    ∀ vs, MachineM.Mirrors T (popOnto (σ := σ) vs ks) := by
  induction ks with
  | nil => exact fun vs => .pure vs
  | cons k ks ih => exact fun vs => .bind (mirrors_popValue k) fun v => ih (v :: vs)

theorem mirrors_dropEntries (n : Nat) : MachineM.Mirrors T (dropEntries (σ := σ) n) := by
  induction n with
  | zero => exact .pure _
  | succ n ih => exact .bind mirrors_popEntry fun _ => ih

theorem mirrors_push (v : Value) :
    MachineM.Mirrors T (modify (push · v) : MachineM σ PUnit) :=
  .modify fun h => h.pushEntry _

/-! ### Memory and instances -/

theorem mirrors_write (x : Reference) (v : CellValue) :
    MachineM.Mirrors T (write (σ := σ) x v) := by
  intro t t' m m' r n h hx hr
  rw [write_eq_store] at hx ⊢
  rw [h.script, h.config, h.memory]
  rcases hm : m.memory.write m.script m.config.flags x v with e | memory
  · rw [hm] at hx
    obtain ⟨rfl, rfl⟩ := Prod.mk.inj hx
    obtain ⟨traced, P, rfl⟩ := hr.exists_strict
    exact ⟨m', congrArg (Query.store m') hm, h⟩
  · rw [hm] at hx
    obtain ⟨rfl, rfl⟩ := Prod.mk.inj hx
    have hm' : (T.memory m.memory).write m.script (T.config m.config).flags x v =
        .ok (T.memory memory) := by
      cases T with
      | strict => exact hm
      | relaxed c => exact Memory.write_relaxed h.allows.flags _ hm
    exact ⟨_, congrArg (Query.store m') hm', h.setMemory memory⟩

theorem mirrors_markInitialized (x : Handle) :
    MachineM.Mirrors T (markInitialized (σ := σ) x) := by
  intro t t' m m' r n h hx _
  have hget : m'.memory.instances.get x = m.memory.instances.get x := by
    rw [h.memory, T.get_memory]
  rw [markInitialized, MachineM.get_bind, MachineM.lift_bind, Memory.markInitialized] at hx ⊢
  rcases hm : m.memory.instances.get x with e | y
  · rw [hm] at hx
    obtain ⟨rfl, rfl⟩ := Prod.mk.inj hx
    rw [hget, hm]
    exact ⟨m', rfl, h⟩
  · rw [hm] at hx
    obtain ⟨rfl, rfl⟩ := Prod.mk.inj hx
    rw [hget, hm]
    have hmark := h.setMemory
      { m.memory with instances := m.memory.instances.put x { y with state := .initialized } }
    refine ⟨_, rfl, ?_⟩
    rw [h.memory]
    cases T <;> exact hmark

/-! ### Callbacks and calls -/

theorem mirrors_takeArguments (f : Symbol) (x : Binding σ) :
    MachineM.Mirrors T (takeArguments f x) :=
  .bind (mirrors_popOnto _ _) fun _ => .bind (.modify fun h => h.report _) fun _ => .pure _

theorem mirrors_giveResult (f : Symbol) (x : Binding σ) (v : Value) :
    MachineM.Mirrors T (giveResult f x v) := by
  refine .check (fun h _ => h.ensureUsable) fun _ => ?_
  split
  · exact .modify fun h => h.pushResult v
  · exact .throw _

theorem mirrors_balance (f : Symbol) : MachineM.Mirrors T (balance (σ := σ) f) := by
  intro t t' m m' r n h hx hr
  rw [balance, MachineM.get_bind] at hx ⊢
  rw [h.script]
  refine MachineM.Mirrors.bind (mirrors_dropEntries _) (fun _ => ?_) h hx hr
  split
  · exact .modify fun h => h.pushResult _
  · exact .pure _

theorem mirrors_takeResult (f : Symbol) (kind : Kind) (depth : Nat) :
    MachineM.Mirrors T (takeResult (σ := σ) f kind depth) := by
  rw [takeResult]
  split
  · exact .pure _
  intro t t' m m' r n h hx hr
  rw [MachineM.get_bind] at hx ⊢
  rw [h.stack]
  split
  · next hd =>
    rw [if_pos hd] at hx
    obtain ⟨rfl, rfl⟩ := Prod.mk.inj hx
    exact ⟨_, rfl, h.report _⟩
  · next hd =>
    rw [if_neg hd] at hx
    exact mirrors_popValue kind h hx hr

namespace Mirrors

variable {t t' : List Frame} {m m' : Machine σ} (h : m.Mirrors T t t' m')

include h

theorem reportUnregistered (f : Symbol) :
    (m.reportUnregistered f).Mirrors T t t' (m'.reportUnregistered f) := by
  rw [Machine.reportUnregistered, Machine.reportUnregistered, h.registrations]
  split
  · exact h
  · exact { h with
      registrations := rfl
      callbacks := ⟨h.callbacks.externals, h.callbacks.overrides, h.callbacks.fallback⟩
      log := h.log.cons _ }

theorem checkCall (key : SymbolKey) (args : List Value) (expected : Option Kind) :
    m'.checkCall key args expected = m.checkCall key args expected := by
  rw [Machine.checkCall, Machine.checkCall, h.ensureUsable, h.script]

theorem beginCall (f : Symbol) (args : List Value) :
    (m.beginCall f args).Mirrors T t t' (m'.beginCall f args) := by
  rw [beginCall_eq, beginCall_eq, h.stack]
  exact (h.report _).withStack _

theorem checkBody (x : Handle) : m'.checkBody x = m.checkBody x := by
  rw [Machine.checkBody, Machine.checkBody, h.ensureUsable, h.script, h.memory, T.get_memory]

theorem beginBody (s : Symbol) (x : Handle) :
    (m.beginBody s x).Mirrors T t t' (m'.beginBody s x) :=
  ((h.setContext _).setSlot .self _).report _

theorem displaced : m'.displaced = m.displaced := by
  rw [Machine.displaced, Machine.displaced, slot, slot, h.slotIndex, h.bound, h.context]

theorem restore (d : Displaced) : (m.restore d).Mirrors T t t' (m'.restore d) :=
  (h.setContext _).setSlot .self _

end Mirrors

/-! ### Instructions -/

theorem mirrors_result (address : UInt32) (n : Option Int32) :
    MachineM.Mirrors T (result (σ := σ) address n) := by
  cases n with
  | some n => exact .pure n
  | none => exact .throw _

/-- Whether a body is entered depends on how many are active, which is the same in both machines. -/
theorem Mirrors.maxCallDepth {t t' : List Frame} {m m' : Machine σ} (h : m.Mirrors T t t' m')
    (hd : m.frames.length < m.config.maxCallDepth) :
    m'.frames.length < m'.config.maxCallDepth := by
  rw [h.length_frames, h.config]
  cases T with
  | strict => exact hd
  | relaxed => exact Nat.lt_of_lt_of_le hd h.allows.depth

theorem mirrors_enter (function : Option UInt32) (target : UInt32) :
    MachineM.Mirrors T (enter (σ := σ) function target false) := by
  intro t t' m m' r n h hx hr
  rw [enter_apply] at hx ⊢
  split at hx
  · next hd =>
    -- a refusal is compared only where both limits are the same
    obtain ⟨rfl, rfl⟩ := Prod.mk.inj hx
    obtain ⟨traced, P, rfl⟩ := hr.exists_strict
    have hc : m'.config = m.config := h.config
    rw [hc, h.length_frames, if_pos hd]
    exact ⟨m', rfl, h⟩
  · next hd =>
    obtain ⟨rfl, rfl⟩ := Prod.mk.inj hx
    rw [if_neg (Nat.not_le_of_lt (h.maxCallDepth (Nat.lt_of_not_le hd)))]
    exact ⟨_, rfl, h.entered function target⟩

theorem Mirrors.overriding? {t t' : List Frame} {m m' : Machine σ} (h : m.Mirrors T t t' m')
    (target : UInt32) : m'.overriding? target = m.overriding? target := by
  have ho : m'.hasOverride = m.hasOverride := by
    funext f
    rw [hasOverride, hasOverride, h.registrations]
  rw [Machine.overriding?, Machine.overriding?, h.script, ho]

theorem mirrors_callBody (i : Instruction) (target : UInt32) :
    MachineM.Mirrors T (perform (σ := σ) i .callBody (.address target)) := by
  intro t t' m m' r n h hx hr
  rw [perform, MachineM.get_bind, ← overriding?] at hx ⊢
  rw [h.script, h.overriding?]
  rcases ho : m.overriding? target with _ | f
  · rw [ho] at hx
    exact MachineM.Mirrors.bind (mirrors_enter _ target) (fun _ => .pure Flow.next) h hx hr
  · rw [ho] at hx
    exact MachineM.Mirrors.pure (Flow.override f) h hx hr

/-- An instruction has the same effect on both machines. -/
theorem mirrors_execute (i : Instruction) : MachineM.Mirrors T (execute (σ := σ) i) := by
  rw [execute]
  generalize i.opcode.effect = eff, i.operand = op
  unfold perform
  split
  -- operators and assignments
  · exact .bind (mirrors_pop _) fun a => .bind (mirrors_pop _) fun b =>
      .bind (mirrors_result _ _) fun n => .bind (mirrors_push _) fun _ => .pure _
  · exact .bind (mirrors_pop _) fun a => .bind (mirrors_push _) fun _ => .pure _
  · exact .bind mirrors_popReference fun x => .bind (mirrors_pop _) fun c =>
      .bind (mirrors_write _ _) fun _ => .pure _
  · exact .bind mirrors_popReference fun x => .bind (mirrors_pop _) fun a =>
      .check (fun h hr => h.read hr) fun b => .bind (mirrors_result _ _) fun n =>
        .bind (mirrors_write _ _) fun _ => .pure _
  -- what is pushed, and the current instance, are looked up in the machine
  · exact .bind (.modify fun h => h.pushEntry _) fun _ => .pure _
  · refine .bind (.modify fun h => ?_) fun _ => .pure _
    rw [h.context]
    exact h.pushEntry _
  · refine .bind (.modify fun h => ?_) fun _ => .pure _
    rw [h.context]
    exact h.pushEntry _
  · refine .bind (.modify fun h => ?_) fun _ => .pure _
    rw [h.bound]
    exact h.pushEntry _
  · refine .bind (.modify fun h => ?_) fun _ => .pure _
    rw [h.bound]
    exact h.setContext _
  -- control
  · exact .bind (.modify fun h => h.jump _) fun _ => .pure _
  · refine .bind (mirrors_pop _) fun a => ?_
    split
    · exact .bind (.modify fun h => h.jump _) fun _ => .pure _
    · exact .pure _
  · exact mirrors_callBody i _
  · exact .pure _
  · exact .pure _
  · exact .pure _
  -- the operand does not have the shape that the opcode asks for
  · exact .throw _

end Machine

end ScriptMachine
