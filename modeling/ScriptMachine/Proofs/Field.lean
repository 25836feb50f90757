import ScriptMachine.Host.View
import ScriptMachine.Proofs.Shape

/-!
# Two ways to a field

A field of an instance is found in two ways. A script, and host code that names the symbol of a
member, count from the index of the class to the index of the member; host code that views the
instance looks the unqualified name up among the members of the class. Both come to the same
storage, so they read and write the same cells.

* `Script.Declares` – whether a class declares a member, and no other of its name before it.
* `Memory.Leads` – whether a symbol and a name lead to one storage, which gives both ways to read
  and both ways to write.
* `Memory.exists_leads` – a declared member and its name do.
* `HostAction.Yields` – what host code gets from an action, and the machine afterwards.
* `Machine.fields_of_passes` – views and symbols at any moment of a run.
-/

namespace ScriptMachine

/-! ## Members of classes -/

namespace Script

variable {p : Script} {cls s : Symbol}

/-- Whether a class declares a variable: it is a member of the class in its range, and no symbol
before it in the range has the same unqualified name. -/
structure Declares (p : Script) (cls s : Symbol) : Prop where
  member : s.isMember = true
  writable : s.isConst = false
  parent : s.parent = some cls.index
  first : ∃ before after, p.membersOf cls = before ++ s :: after ∧
    ∀ u ∈ before, Text.sameName u.shortName s.shortName = false

/-- The members of a class follow it in the table. -/
theorem getElem?_of_membersOf {before after : List Symbol}
    (h : p.membersOf cls = before ++ s :: after) :
    p.symbols[cls.index.toNat + 1 + before.length]? = some s := by
  have hget : (p.membersOf cls)[before.length]? = some s := by
    rw [h, List.getElem?_append_right (Nat.le_refl _), Nat.sub_self]
    rfl
  obtain ⟨hlength, -⟩ := List.getElem?_eq_some_iff.1 hget
  rwa [getElem?_membersOf hlength] at hget

/-- No slot that the loader adds is a member. -/
theorem lt_size_of_isMember {enc : Text.Encoding} {bytes : List UInt8} {j : Nat}
    (hload : load enc bytes = .ok p) (hs : p.symbols[j]? = some s) (hm : s.isMember = true) :
    j < UInt32.size := by
  rcases lt_size_or_slot hload hs with ⟨hlt, -⟩ | ⟨name, i, rfl⟩
  · exact hlt
  · have hmember : SymbolFlags.generated.contains .member = false := by decide
    cases hmember.symm.trans hm

/-- The member at a position of a class has the index that the position stands for, and is found
there. -/
theorem index_of_membersOf {enc : Text.Encoding} {bytes : List UInt8} {before after : List Symbol}
    (hload : load enc bytes = .ok p) (h : p.membersOf cls = before ++ s :: after)
    (hm : s.isMember = true) :
    p.symbolByIndex? s.index = some s ∧ Memory.ordinal cls.index s.index = .ok before.length := by
  have hs := getElem?_of_membersOf h
  have hlt := lt_size_of_isMember hload hs hm
  have hnat : (UInt32.ofNat (cls.index.toNat + 1 + before.length)).toNat =
      cls.index.toNat + 1 + before.length := UInt32.toNat_ofNat_of_lt' hlt
  have hindex := index_of_getElem? hload hs
  refine ⟨by rw [symbolByIndex?, hindex, hnat, hs], ?_⟩
  rw [Memory.ordinal_eq_ok, hindex, hnat]

/-- A declared member is what its unqualified name stands for. -/
theorem Declares.findMember? {member : String} (h : p.Declares cls s)
    (hname : Text.sameName s.shortName member = true) : p.findMember? cls member = some s := by
  obtain ⟨before, after, hmembers, hfirst⟩ := h.first
  refine List.find?_eq_some_iff_append.2 ⟨hname, before, after, hmembers, fun u hu => ?_⟩
  rw [Bool.not_eq_true', Text.sameName, ← Text.sameName_iff.1 hname]
  exact hfirst u hu

end Script

/-! ## Reading and writing a field -/

namespace Memory

variable {m : Memory} {p : Script} {flags : ExecutionFlags}

/-- Whether a symbol and an unqualified name both lead to a storage of an instance. -/
structure Leads (m : Memory) (p : Script) (s : Symbol) (member : String) (h : Handle)
    (place : Place) (st : Storage) : Prop where
  found : p.symbolByIndex? s.index = some s
  writable : s.isConst = false
  located : ∀ flags, m.locate p flags s s.index (some h) = .ok (some place)
  named : m.memberPlace p h member = .ok place
  stored : m.storageAt? place = some st

/-- A declared member leads to a field of every instance of its class, by its index and by its
name. -/
theorem exists_leads {enc : Text.Encoding} {bytes : List UInt8} {h : Handle} {y : Instance}
    {cls s : Symbol} {member : String} (hload : Script.load enc bytes = .ok p)
    (hy : m.instances.get? h = some y) (hfits : y.Fits p)
    (hcls : p.symbolByIndex? y.cls = some cls) (hs : p.Declares cls s)
    (hname : Text.sameName s.shortName member = true) :
    ∃ place st, m.Leads p s member h place st := by
  obtain ⟨before, after, hmembers, -⟩ := hs.first
  obtain ⟨hfound, hordinal⟩ := Script.index_of_membersOf hload hmembers hs.member
  have hindex : cls.index = y.cls := Script.numbered_of_load hload _ _ hcls
  have hget : m.instances.get h = .ok y := Registry.get_eq_ok.2 hy
  have hlt : before.length < y.fields.size := by
    obtain ⟨c, hc, -, hshape⟩ := hfits
    obtain rfl := Option.some.inj (hc.symm.trans hcls)
    have hsize := congrArg Array.size hshape
    simp only [Array.size_map, List.size_toArray, List.length_map, hmembers,
      List.length_append, List.length_cons] at hsize
    omega
  refine ⟨.field h y before.length, y.fields[before.length], hfound, hs.writable, fun flags => ?_,
    ?_, Array.getElem?_eq_getElem hlt⟩
  · -- by its index, counted from the class
    rw [locate_member hs.member hy, if_pos (hs.parent.trans (congrArg some hindex)), ← hindex,
      hordinal]
    rfl
  · -- by its name, looked up among the members of the class
    have hfind : p.find (.index y.cls) = .ok cls := by
      rw [Script.find, Script.resolve?, hcls]
    refine (Except.bind_of_ok hget).trans ((Except.bind_of_ok hfind).trans ?_)
    rw [hs.findMember? hname]
    exact Except.bind_of_ok hordinal

namespace Leads

variable {s : Symbol} {member : String} {h : Handle} {place : Place} {st : Storage}
  (hl : m.Leads p s member h place st)

include hl

theorem find : p.find (.index s.index) = .ok s := by
  rw [Script.find, Script.resolve?, hl.found]

theorem memberStorage : m.memberStorage p h member = .ok (place, st) := by
  refine (Except.bind_of_ok hl.named).trans ?_
  simp only [hl.stored]
  rfl

theorem read (k : CellKind) (i : Nat) :
    m.read p flags k ⟨s.index, i, some h⟩ =
      (st.get k i).mapError (CellFault.toError s.name k i) := by
  refine (Except.bind_of_ok hl.find).trans ((Except.bind_of_ok (hl.located flags)).trans ?_)
  simp only [hl.stored]

theorem readField (k : CellKind) (i : Nat) :
    m.readField p k h member i = (st.get k i).mapError (CellFault.toError member k i) := by
  rw [Memory.readField, hl.memberStorage]

theorem write (i : Nat) (v : CellValue) :
    m.write p flags ⟨s.index, i, some h⟩ v =
      ((st.set i v).map (m.putAt · place)).mapError (CellFault.toError s.name v.1 i) := by
  refine (Except.bind_of_ok hl.find).trans ?_
  simp only [hl.writable, Bool.false_and, Bool.false_eq_true, if_false]
  refine (Except.bind_of_ok (hl.located flags)).trans ?_
  simp only [hl.stored]
  cases st.set i v <;> rfl

theorem writeField (i : Nat) (v : CellValue) :
    m.writeField p v h member i =
      ((st.set i v).map (m.putAt · place)).mapError (CellFault.toError member v.1 i) := by
  refine (Except.bind_of_ok hl.memberStorage).trans ?_
  dsimp only
  cases st.set i v <;> rfl

end Leads

/-- A name that no member of the class has leads nowhere. -/
theorem memberStorage_of_undeclared {h : Handle} {y : Instance} {cls : Symbol} {member : String}
    (hy : m.instances.get? h = some y) (hcls : p.symbolByIndex? y.cls = some cls)
    (hname : ∀ u ∈ p.membersOf cls, Text.sameName u.shortName member = false) :
    m.memberStorage p h member = .error (.unknownMember cls.name member) := by
  have hfind : p.find (.index y.cls) = .ok cls := by
    rw [Script.find, Script.resolve?, hcls]
  have hnone : p.findMember? cls member = none :=
    List.find?_eq_none.2 fun u hu => by simp [hname u hu]
  refine Except.bind_of_error ((Except.bind_of_ok (Registry.get_eq_ok.2 hy)).trans
    ((Except.bind_of_ok hfind).trans ?_))
  rw [hnone]
  rfl

end Memory

/-! ## Host code -/

namespace HostAction

variable {σ α β : Type}

/-- What host code gets from an action, and the machine afterwards: whatever follows the action goes
on from there. -/
def Yields (a : HostAction σ α) (m : Machine σ) (p : α × Machine σ) : Prop :=
  ∀ b host next, Routine.run b (a next) ⟨host, m⟩ = Routine.run b (next p.1) ⟨host, p.2⟩

variable {m n : Machine σ}

/-- Host code gets the answer to a query, unless the program ends with it. -/
theorem yields_ask {q : Query} {p : q.Reply × Machine σ} (hq : q.answer m = p)
    (hends : q.ends p.1 = false) : (ask q : HostAction σ _).Yields m p := by
  intro b host next
  refine (Routine.run_ask b q next ⟨host, m⟩).trans ?_
  rw [hq, hends]
  rfl

theorem yields_pure (x : α) (m : Machine σ) : (pure x : HostAction σ α).Yields m (x, m) :=
  fun _ _ _ => rfl

theorem Yields.bind {a : HostAction σ α} {f : α → HostAction σ β} {x : α} {p : β × Machine σ}
    (ha : a.Yields m (x, n)) (hf : (f x).Yields n p) : (a >>= f).Yields m p :=
  fun b host next => (ha b host fun x => f x next).trans (hf b host next)

/-- A view of a live instance under its own tag, or under the one that fits all, is granted. -/
theorem Yields.view {tag : InstanceTag} {h : Handle} {x : HostAction σ (Except Error α)}
    {p : Except Error α × Machine σ} {y : Instance} (hy : m.memory.instances.get? h = some y)
    (htag : tag = .unknown ∨ h.tag = tag) (hx : x.Yields m p) : (view tag h x).Yields m p := by
  have hcheck : m.memory.checkTag tag h = .ok () := by
    refine (Except.bind_of_ok (Registry.get_eq_ok.2 hy)).trans ?_
    rw [if_pos htag]
    rfl
  have hask : (ask (.openView tag h)).Yields m (.ok (), m) := by
    refine yields_ask ?_ rfl
    rw [Query.answer, hcheck]
    rfl
  exact hask.bind hx

end HostAction

/-! ## Machines -/

namespace Machine

variable {σ : Type} {m : Machine σ}

open HostAction Query

/-- Whether a name in views of an instance and the symbol that a key stands for are one variable,
for host code and for scripts: all of them read the same content or fail for the same reason, and
all of them leave the same machine when they write. Views report the name they were given, and the
others the name of the symbol. -/
structure SameField (m : Machine σ) (tag : InstanceTag) (h : Handle) (member : String)
    (key : SymbolKey) (s : Symbol) : Prop where
  reads : ∀ k i, ∃ r : Except CellFault k.Content,
    (readMember tag h k member i).Yields m
        (observe m (r.mapError (CellFault.toError member k i))) ∧
      (ask (.read k key i (some h))).Yields m
        (observe m (r.mapError (CellFault.toError s.name k i))) ∧
      m.read k ⟨s.index, i, some h⟩ = r.mapError (CellFault.toError s.name k i)
  writes : ∀ v i, ∃ r : Except CellFault Memory,
    (writeMember tag h v member i).Yields m
        (store m (r.mapError (CellFault.toError member v.1 i))) ∧
      (ask (.write v key i (some h))).Yields m
        (store m (r.mapError (CellFault.toError s.name v.1 i))) ∧
      write ⟨s.index, i, some h⟩ v m = store m (r.mapError (CellFault.toError s.name v.1 i))

/-- Whether a name stands for nothing in views of an instance: it reads as zero, and writing it
fails. So do the fields of schemas that use the name. -/
structure NoField (m : Machine σ) (tag : InstanceTag) (h : Handle) (member : String)
    (cls : Symbol) : Prop where
  reads : ∀ k i, (readMember tag h k member i).Yields m (.ok k.zero, m)
  writes : ∀ v i, (writeMember tag h v member i).Yields m
    (.error (.unknownMember cls.name member), m)
  fields : ∀ (schema : Schema) (f : SchemaField) (j i : Nat), schema.tag = tag →
    f.member = member → f.index.position? j = some i →
      (readField schema h f j).Yields m (.ok (some f.kind.zero), m) ∧
        ∀ v, (writeField schema h f j v).Yields m (.error (.unknownMember cls.name member), m)

/-- A cell that is refused does not end the program. -/
theorem ends_mapError {α : Type} (r : Except CellFault α) (name : String) (k : CellKind)
    (i : Nat) : Error.ends (r.mapError (CellFault.toError name k i)) = false := by
  rcases r with (_ | _) | _ <;> rfl

theorem ends_store (m : Machine σ) (r : Except Error Memory) :
    Error.ends (store m r).1 = Error.ends r := by
  rcases r with e | _
  · cases e <;> rfl
  · rfl

section

variable {tag : InstanceTag} {h : Handle} {y : Instance} {member : String}
  (hy : m.memory.instances.get? h = some y) (htag : tag = .unknown ∨ h.tag = tag)

include hy htag

/-- A name and a symbol that lead to one storage are one variable. -/
theorem sameField_of_leads {s : Symbol} {key : SymbolKey} {place : Memory.Place} {st : Storage}
    (hl : m.memory.Leads m.script s member h place st) (hkey : m.script.find key = .ok s) :
    m.SameField tag h member key s where
  reads k i := by
    refine ⟨st.get k i, .view hy htag ?_, ?_, hl.read k i⟩
    · refine yields_ask ?_ (ends_mapError _ member k i)
      rw [answer, hl.readField]
    · have href : Memory.reference m.script key i (some h) = .ok ⟨s.index, i, some h⟩ :=
        Except.bind_of_ok hkey
      refine yields_ask ?_ (ends_mapError _ s.name k i)
      rw [answer, Except.bind_of_ok href, Machine.read, hl.read]
  writes v i := by
    refine ⟨(st.set i v).map (m.memory.putAt · place), .view hy htag ?_, ?_, ?_⟩
    · refine yields_ask ?_ ((ends_store m _).trans (ends_mapError _ member v.1 i))
      rw [answer, hl.writeField]
    · have href : Memory.reference m.script key i (some h) = .ok ⟨s.index, i, some h⟩ :=
        Except.bind_of_ok hkey
      refine yields_ask ?_ ((ends_store m _).trans (ends_mapError _ s.name v.1 i))
      rw [answer, Except.bind_of_ok href, hl.write]
    · rw [write_eq_store, hl.write]

/-- A name that leads nowhere stands for nothing. -/
theorem noField_of_memberStorage {cls : Symbol}
    (hs : m.memory.memberStorage m.script h member = .error (.unknownMember cls.name member)) :
    m.NoField tag h member cls := by
  have hread (k : CellKind) (i : Nat) :
      (ask (.readField k h member i)).Yields m (.ok k.zero, m) := by
    refine yields_ask ?_ rfl
    rw [answer, Memory.readField, hs]
    rfl
  have hwrite (v : CellValue) (i : Nat) : (ask (.writeField v h member i)).Yields m
      (.error (.unknownMember cls.name member), m) := by
    refine yields_ask ?_ rfl
    rw [answer, Memory.writeField, Except.bind_of_error hs]
    rfl
  refine ⟨fun k i => .view hy htag (hread k i), fun v i => .view hy htag (hwrite v i), ?_⟩
  rintro schema f j i rfl rfl hi
  refine ⟨.view hy htag ?_, fun v => .view hy htag ?_⟩
  · rw [hi]
    exact (hread f.kind i).bind (yields_pure _ m)
  · rw [hi]
    exact (hwrite v i).bind (yields_pure _ m)

end

/-- Take a loaded script, any moment of a run on it, and an instance that is live then, whatever it
was allocated under. A member that the class of the instance declares is one variable with its
unqualified name in views. A name that no symbol in the range of the class has stands for nothing in
views. -/
theorem fields_of_passes {enc : Text.Encoding} {bytes : List UInt8} {p : Script} {c : Config}
    (hload : Script.load enc bytes = .ok p) {n steps : Nat} {x : Routine σ} {host : σ}
    {t : Moment σ} (hpasses : Passes .any (.nested n steps) ⟨.routine x, ⟨host, new p c⟩⟩ t)
    {h : Handle} {y : Instance} {tag : InstanceTag}
    (hy : t.world.machine.memory.instances.get? h = some y)
    (htag : tag = .unknown ∨ h.tag = tag) :
    ∃ cls, p.symbolByIndex? y.cls = some cls ∧
      (∀ s key member, p.Declares cls s → Text.sameName s.shortName member = true →
        p.find key = .ok s → t.world.machine.SameField tag h member key s) ∧
      ∀ member, (∀ u ∈ p.membersOf cls, Text.sameName u.shortName member = false) →
        t.world.machine.NoField tag h member cls := by
  have hscript : t.world.machine.script = p := hpasses.evolves.script_eq
  have hfits := Evolves.fits hload hpasses.evolves h y hy
  obtain ⟨cls, hcls, -⟩ := id hfits
  refine ⟨cls, hcls, fun s key member hs hname hkey => ?_, fun member hname => ?_⟩
  · obtain ⟨place, st, hl⟩ := Memory.exists_leads hload hy hfits hcls hs hname
    exact sameField_of_leads hy htag (hscript ▸ hl) (hscript ▸ hkey)
  · have hs := Memory.memberStorage_of_undeclared hy hcls hname
    exact noField_of_memberStorage hy htag (hscript ▸ hs)

/-- The only member of a class by its name in another case, and a name that the class does not
declare. -/
theorem fields_of_creating :
    ∃ o w, Routine.run (.nested 1 5) .creating ⟨(), new .figure .default⟩ = some (o, w) ∧
      ∃ h s, Script.figure.find (.name "x") = .ok s ∧
        w.machine.SameField .unknown h "x" (.name "x") s ∧
        w.machine.NoField .unknown h "Y" (.blank "" 0 .cls none) := by
  have hrun : ∃ q ∈ Routine.run (.nested 1 5) .creating ⟨(), new .figure .default⟩,
      q.2.machine.memory.instances.get? ⟨0, 0, 2, .unknown⟩ =
        some ⟨0, .initialized, #[.ints #[7]]⟩ := by decide +kernel
  obtain ⟨⟨o, w⟩, hrun, hy⟩ := hrun
  obtain ⟨cls, hcls, hsame, hnone⟩ := fields_of_passes Script.load_figureBytes
    (Routine.passes_of_run _ (Routine.heeds_any _ _) hrun) hy (.inl rfl)
  obtain rfl := Option.some.inj hcls
  refine ⟨o, w, hrun, _, _, rfl, hsame _ _ _ ?_ (by decide) rfl, hnone _ (by decide)⟩
  exact ⟨by decide, by decide, rfl, [], [], rfl, nofun⟩

end Machine

end ScriptMachine
