import ScriptMachine.Proofs.Access

/-!
# Offsets of members

The field of a member is at the distance of the member from its class in the symbol table. The
distance is taken once the member is known to name the class of the instance as its parent. Nothing
makes sure that it lies behind the class: parents are stored in a script, and the loader takes them
as they are. For a member that does not, the distance is no number of 32 bits, and the program ends
instead of refusing the access.

* `Machine.Ends` – whether host code ends with reading or writing it.
* `Machine.offset_of_member` – where a member is looked for, where it is refused, and where the
  program ends.
* `Machine.not_behind_class` – a member with which it does.
-/

namespace ScriptMachine

/-! ## Fields -/

/-- An instance has one field for each member of its class. -/
theorem Instance.Fits.exists_class {p : Script} {y : Instance} (hy : y.Fits p) :
    ∃ cls, p.symbolByIndex? y.cls = some cls ∧ y.fields.size = (p.membersOf cls).length := by
  obtain ⟨cls, hcls, -, hshape⟩ := hy
  exact ⟨cls, hcls, by simpa using congrArg Array.size hshape⟩

namespace Memory

variable {m : Memory} {p : Script} {flags : ExecutionFlags} {s : Symbol} {i : UInt32}
  {h : Handle} {x : Instance}

/-- What is located at an offset where the instance has no field is refused. The class is named if
it is read, but not if it is written. -/
theorem refuses_of_size_le (hs : p.symbolByIndex? i = some s) {n : Nat}
    (hl : m.locate p flags s i (some h) = .ok (some (.field h x n))) (hn : x.fields.size ≤ n) :
    m.Refuses p flags s i h (.illegalMemberAccess s.name (p.nameOrIndex x.cls))
      (.illegalMemberAccess s.name "") where
  read k j := by
    have hfind : p.find (.index i) = .ok s := Script.find_index_eq_ok.2 hs
    have hst : m.storageAt? (.field h x n) = none := Array.getElem?_eq_none hn
    rw [read, Except.bind_of_ok hfind, Except.bind_of_ok hl]
    simp only [hst]
  write v j := by
    have hfind : p.find (.index i) = .ok s := Script.find_index_eq_ok.2 hs
    have hst : m.storageAt? (.field h x n) = none := Array.getElem?_eq_none hn
    rw [write, Except.bind_of_ok hfind]
    split
    · rfl
    · rw [hl, Except.bind_of_ok rfl]
      simp only [hst]
      rfl

end Memory

namespace Machine

variable {σ : Type} {m : Machine σ} {s : Symbol} {i : UInt32} {h : Handle} {x : Instance}

/-- The instances of a machine that runs a loaded script fit their classes. -/
theorem Reachable.fits (hm : Reachable m) (hx : m.memory.instances.get? h = some x) :
    x.Fits m.script ∧ m.script.Numbered := by
  obtain ⟨enc, bytes, p, c, hload, hev⟩ := hm
  rw [hev.script_eq]
  exact ⟨hev.fits hload h x hx, Script.numbered_of_load hload⟩

/-- A field at the distance of a member from its class is the one that the class has for this
member. -/
theorem Reachable.getElem?_membersOf (hm : Reachable m)
    (hx : m.memory.instances.get? h = some x) (hs : m.script.symbolByIndex? i = some s) {n : Nat}
    (hn : x.cls.toNat + 1 + n = i.toNat) (hfield : n < x.fields.size) :
    ∃ cls, m.script.symbolByIndex? x.cls = some cls ∧ (m.script.membersOf cls)[n]? = some s := by
  obtain ⟨hfits, hnumbered⟩ := hm.fits hx
  obtain ⟨cls, hcls, hfields⟩ := hfits.exists_class
  refine ⟨cls, hcls, ?_⟩
  rw [Script.getElem?_membersOf (hfields ▸ hfield), hnumbered _ _ hcls, hn]
  exact hs

/-- Whether host code ends with reading or writing any element of a symbol in an instance, and
leaves the machine as it is. A constant is not written to in the first place. -/
structure Ends (m : Machine σ) (s : Symbol) (h : Handle) : Prop where
  read : ∀ b host k key j next, m.script.find key = .ok s →
    Routine.run b (.ask (.read k key j (some h)) next) ⟨host, m⟩ =
      some (Routine.ended, ⟨host, m⟩)
  write : ∀ b host v key j next, m.script.find key = .ok s →
    (s.isConst && !m.config.flags.contains .ignoreConst) = false →
      Routine.run b (.ask (.write v key j (some h)) next) ⟨host, m⟩ =
        some (Routine.ended, ⟨host, m⟩)

/-- Host code is not told of a distance that overflows. -/
theorem ends_of_refuses (hi : s.index = i)
    (hr : m.memory.Refuses m.script m.config.flags s i h .overflow .overflow) : Ends m s h where
  read b host k key j next hkey := by
    have href : Memory.reference m.script key j (some h) = .ok ⟨i, j, some h⟩ :=
      hi ▸ Except.bind_of_ok hkey
    have hanswer : Query.answer m (.read k key j (some h)) = (.error .overflow, m) := by
      rw [Query.answer, Except.bind_of_ok href, Machine.read, hr.read]
      rfl
    rw [Routine.run_ask, hanswer]
    rfl
  write b host v key j next hkey hconst := by
    have href : Memory.reference m.script key j (some h) = .ok ⟨i, j, some h⟩ :=
      hi ▸ Except.bind_of_ok hkey
    have hanswer : Query.answer m (.write v key j (some h)) = (.error .overflow, m) := by
      rw [Query.answer, Except.bind_of_ok href, hr.write, hconst]
      rfl
    rw [Routine.run_ask, hanswer]
    rfl

/-- Take any machine that runs a loaded script, a live instance and a symbol that is a member. If
its parent is not the class of the instance, the member is refused under an error that names the
class, and no distance is taken. If it is, and the member lies behind its class, the field is looked
for at the distance: it is the one that the class has for this member, and where the instance has no
such field the member is refused, under an error that names the class if it is read, but not if it
is written. If the member does not lie behind its class, it is not refused: the distance overflows,
whether the member is read or written, and the host code that asks for it ends. -/
theorem offset_of_member (hm : Reachable m) (hx : m.memory.instances.get? h = some x)
    (hs : m.script.symbolByIndex? i = some s) (hmember : s.isMember = true) :
    (s.parent ≠ some x.cls →
      m.memory.Refuses m.script m.config.flags s i h
        (.illegalMemberAccess s.name (m.script.nameOrIndex x.cls))
        (.illegalMemberAccess s.name (m.script.nameOrIndex x.cls))) ∧
    (s.parent = some x.cls → x.cls < i →
      ∃ n, x.cls.toNat + 1 + n = i.toNat ∧
        m.memory.locate m.script m.config.flags s i (some h) = .ok (some (.field h x n)) ∧
        (n < x.fields.size → ∃ cls, m.script.symbolByIndex? x.cls = some cls ∧
          (m.script.membersOf cls)[n]? = some s) ∧
        (x.fields.size ≤ n →
          m.memory.Refuses m.script m.config.flags s i h
            (.illegalMemberAccess s.name (m.script.nameOrIndex x.cls))
            (.illegalMemberAccess s.name ""))) ∧
    (s.parent = some x.cls → i ≤ x.cls →
      m.memory.Refuses m.script m.config.flags s i h .overflow .overflow ∧ Ends m s h) := by
  have hlocate : m.memory.locate m.script m.config.flags s i (some h) = _ :=
    Memory.locate_member hmember hx i
  refine ⟨fun hparent => ?_, fun hparent hlt => ?_, fun hparent hle => ?_⟩
  · rw [if_neg hparent] at hlocate
    exact Memory.refuses_of_locate hs hlocate
  · rw [if_pos hparent] at hlocate
    obtain ⟨n, hn⟩ := Nat.exists_eq_add_of_le (Nat.succ_le_of_lt (UInt32.lt_iff_toNat_lt.1 hlt))
    rw [Memory.ordinal_eq_ok.2 hn.symm] at hlocate
    exact ⟨n, hn.symm, hlocate, hm.getElem?_membersOf hx hs hn.symm,
      Memory.refuses_of_size_le hs hlocate⟩
  · rw [if_pos hparent, Memory.ordinal_eq_error.2 ⟨hle, rfl⟩] at hlocate
    have hrefuses := Memory.refuses_of_locate hs hlocate
    exact ⟨hrefuses, ends_of_refuses ((hm.fits hx).2 _ _ hs) hrefuses⟩

end Machine

/-! ## A member in front of its class -/

/-- A script with a class, a member of the class in front of it, and an instance. -/
def Script.misplaced : Script :=
  .ofParts 50
    [{ Symbol.blank "M" 0 .int (some 1) with flags := .member },
      { Symbol.blank "C" 1 .cls none with count := 0 },
      { Symbol.blank "I" 2 .inst (some 1) with flags := .const, count := 0 }]
    #[60]

/-- The script as it is compiled. -/
def Script.misplacedBytes : List UInt8 :=
  50 :: [3, 0, 0, 0, 1].flatMap LittleEndian.encode ++ [77, 10] ++
    [0, 0x42001, 0, 0, 0, 0, 0, 1, 1].flatMap LittleEndian.encode ++ [67, 10] ++
    [0, 0x4000, 0, 0, 0, 0, 0, 0, 0xFFFFFFFF, 1].flatMap LittleEndian.encode ++ [73, 10] ++
    [0, 0x17000, 0, 0, 0, 0, 0, 0, 1, 1].flatMap LittleEndian.encode ++ [60]

set_option maxRecDepth 1000 in
theorem Script.load_misplacedBytes : load .windows1252 misplacedBytes = .ok misplaced := rfl

namespace Machine

/-- A machine once the instance of this script is allocated. -/
def misplacedHeld : Machine Unit := (alloc (.index 2) .unknown (new .misplaced .default)).2

theorem reachable_misplacedHeld : Reachable misplacedHeld := by
  have halloc : alloc (.index 2) .unknown (new .misplaced .default) =
    (.ok figureHandle, misplacedHeld) := rfl
  exact ⟨.windows1252, Script.misplacedBytes, .misplaced, .default, Script.load_misplacedBytes,
    Edits.evolves (keeps_alloc _ _ _ _ _ halloc)⟩

/-- A member that names the class of the instance as its parent need not lie behind it. Such a
member is not refused: the distance overflows, and host code that writes the member ends. -/
theorem not_behind_class :
    Script.load .windows1252 Script.misplacedBytes = .ok .misplaced ∧ Reachable misplacedHeld ∧
      misplacedHeld.script = .misplaced ∧
      ∃ x s, misplacedHeld.memory.instances.get? figureHandle = some x ∧
        misplacedHeld.script.symbolByIndex? 0 = some s ∧ s.isMember = true ∧
        s.parent = some x.cls ∧ ¬x.cls < 0 ∧ Memory.ordinal x.cls 0 = .error .overflow ∧
        Routine.run (.nested 1 1)
          (.ask (.write ⟨.int, 5⟩ (.index 0) 0 (some figureHandle)) fun r =>
            .finish (r.map (fun _ => .void) |>.mapError .raised)) ⟨(), misplacedHeld⟩ =
          some (.error (.raised .overflow), ⟨(), misplacedHeld⟩) :=
  ⟨Script.load_misplacedBytes, reachable_misplacedHeld, rfl, _, _, rfl, rfl, rfl, rfl, by decide,
    rfl, rfl⟩

/-- The member of one script is at the first offset of an instance, and the program ends with the
misplaced member of the other one. -/
theorem offset_of_member_figure :
    Reachable figureHeld ∧ Reachable misplacedHeld ∧
      (∃ x, figureHeld.memory.locate figureHeld.script figureHeld.config.flags
        { Symbol.blank "C.X" 1 .int (some 0) with flags := .member } 1 (some figureHandle) =
          .ok (some (.field figureHandle x 0))) ∧
      Ends misplacedHeld { Symbol.blank "M" 0 .int (some 1) with flags := .member }
        figureHandle := by
  obtain ⟨-, hbehind, -⟩ :=
    offset_of_member (i := 1) (h := figureHandle) reachable_figureHeld rfl rfl rfl
  obtain ⟨n, hn, hlocate, -⟩ := hbehind rfl (by decide)
  obtain rfl : n = 0 := Nat.add_left_cancel hn
  obtain ⟨-, -, hfront⟩ :=
    offset_of_member (i := 0) (h := figureHandle) reachable_misplacedHeld rfl rfl rfl
  exact ⟨reachable_figureHeld, reachable_misplacedHeld, ⟨_, hlocate⟩, (hfront rfl (by decide)).2⟩

end Machine

end ScriptMachine
