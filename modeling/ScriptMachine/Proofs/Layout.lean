import ScriptMachine.Assembler.Draft
import ScriptMachine.Proofs.Reading
import ScriptMachine.Proofs.Word

/-!
# The layout of symbols

What is written of a symbol is read back as the symbol: the reader asks for the bytes that the type,
the flags and the count of the symbol made the writer lay out. Texts are read as what their encoding
makes of the bytes it wrote, as long as no line ends in them.

* `Symbol.texts` – the texts that are written of a symbol.
* `Text.Encoding.reread` – what an encoding reads back of a text.
* `Text.Encoding.Carries` – whether an encoding writes a text as one line that it reads back.
* `Symbol.Stores` – which payloads belong to a type and a count.
* `Symbol.WellFormed` – whether the properties of a symbol fit their places and its payload belongs
  to them.
* `Symbol.loaded` – a symbol as it is loaded if all its texts are read back.
* `Symbol.reread` – a symbol as it is loaded, whatever becomes of its texts.
* `Symbol.reads_symbolBytes` – it is read from what is written of the symbol.
-/

namespace ScriptMachine

open Assembler
open Reader (Reads)

/-- Whether an encoding reads a text back from the bytes it writes for it, in none of which a line
ends. -/
structure Text.Encoding.Carries (enc : Text.Encoding) (t : String) : Prop where
  decode_encode : enc.decode (enc.encode t.toList) = t.toList
  notMem_encode : 0x0A ∉ enc.encode t.toList

instance (enc : Text.Encoding) (t : String) : Decidable (enc.Carries t) :=
  decidable_of_iff (enc.decode (enc.encode t.toList) = t.toList ∧ 0x0A ∉ enc.encode t.toList)
    ⟨fun h => ⟨h.1, h.2⟩, fun h => ⟨h.1, h.2⟩⟩

/-- What an encoding reads of the bytes it writes for a text. -/
def Text.Encoding.reread (enc : Text.Encoding) (t : String) : String :=
  String.ofList (enc.decode (enc.encode t.toList))

theorem Text.Encoding.reread_empty (enc : Text.Encoding) : enc.reread "" = "" := by
  cases enc with
  | page | utf8 => rfl
  | utf16 => rfl

theorem Text.Encoding.Carries.reread_eq {enc : Text.Encoding} {t : String} (h : enc.Carries t) :
    enc.reread t = t := by
  rw [reread, h.decode_encode, String.ofList_toList]

namespace Reader

theorem reads_word (what : Field) (w : UInt32) : Reads (word what) (LittleEndian.encode w) w := by
  intro rest
  have h : word what (LittleEndian.encode w ++ rest) =
    .ok (LittleEndian.decode w.toUInt8 (w >>> 8).toUInt8 (w >>> 16).toUInt8 (w >>> 24).toUInt8,
      rest) := rfl
  rw [h, LittleEndian.decode_encode]

theorem reads_signedWord (what : Field) (n : Int32) :
    Reads (signedWord what) (LittleEndian.encode n.toUInt32) n :=
  (reads_word what n.toUInt32).map _

theorem reads_text {enc : Text.Encoding} {t : String} (h : 0x0A ∉ enc.encode t.toList)
    (what : Field) : Reads (line enc what) (lineBytes enc t) (enc.reread t) :=
  reads_line enc what h

end Reader

open Reader (reads_word reads_signedWord reads_text)

namespace Symbol

/-! ## Properties -/

/-- Whether the count and the flags of a symbol fit the bits they are stored in. -/
structure Fits (s : Symbol) : Prop where
  count_le : s.count.toNat ≤ 4095
  flags_lt : s.flags.bits.toNat < 32

/-- The places of the count, the type and the flags in one word. -/
theorem toNat_propertyWord (s : Symbol) :
    (propertyWord s).toNat =
      s.count.toNat % 2 ^ 12 + s.type.code.toNat * 2 ^ 12 +
        s.flags.bits.toNat % 2 ^ 5 * 2 ^ 16 := by
  have hcount : (s.count &&& (0xFFF : UInt32)).toNat = s.count.toNat % 2 ^ 12 :=
    toNat_and_mask _ rfl
  have hflags : (s.flags.bits &&& SymbolFlags.stored).toNat = s.flags.bits.toNat % 2 ^ 5 :=
    toNat_and_mask _ rfl
  have htype : s.type.code.toNat < 8 := by cases s.type <;> decide
  -- the type lies above the count, and the flags above both
  have hlow : ((s.count &&& (0xFFF : UInt32)) ||| s.type.code <<< (12 : UInt32)).toNat =
      s.count.toNat % 2 ^ 12 + s.type.code.toNat * 2 ^ 12 := by
    rw [toNat_or_shiftLeft (by decide), hcount]
    · rfl
    · rw [hcount]
      exact Nat.mod_lt _ (by decide)
    · simp only [UInt32.reduceToNat, Nat.reducePow]
      omega
  rw [propertyWord, toNat_or_shiftLeft (by decide), hlow, hflags]
  · rfl
  · rw [hlow]
    simp only [UInt32.reduceToNat, Nat.reducePow]
    omega
  · rw [hflags]
    simp only [UInt32.reduceToNat, Nat.reducePow]
    omega

theorem propertyWord_count {s : Symbol} (h : s.Fits) : propertyWord s &&& 0xFFF = s.count := by
  have hmask : (propertyWord s &&& 0xFFF).toNat = (propertyWord s).toNat % 2 ^ 12 :=
    toNat_and_mask _ rfl
  have hcount := h.count_le
  refine UInt32.toNat_inj.1 ?_
  rw [hmask, toNat_propertyWord]
  omega

theorem propertyWord_type (s : Symbol) : (propertyWord s >>> 12) &&& 0xF = s.type.code := by
  have hmask : ((propertyWord s >>> 12) &&& 0xF).toNat =
      (propertyWord s).toNat / 2 ^ 12 % 2 ^ 4 := by
    rw [toNat_and_mask (n := 4) _ rfl, toNat_shiftRight _ (by decide)]
    rfl
  have htype : s.type.code.toNat < 8 := by cases s.type <;> decide
  refine UInt32.toNat_inj.1 ?_
  rw [hmask, toNat_propertyWord]
  omega

theorem propertyWord_flags {s : Symbol} (h : s.Fits) :
    (propertyWord s >>> 16) &&& SymbolFlags.stored = s.flags.bits := by
  have hmask : ((propertyWord s >>> 16) &&& SymbolFlags.stored).toNat =
      (propertyWord s).toNat / 2 ^ 16 % 2 ^ 5 := by
    rw [toNat_and_mask (n := 5) _ rfl, toNat_shiftRight _ (by decide)]
    rfl
  have htype : s.type.code.toNat < 8 := by cases s.type <;> decide
  have hflags := h.flags_lt
  refine UInt32.toNat_inj.1 ?_
  rw [hmask, toNat_propertyWord]
  omega

/-! ## Contents -/

/-- The payload of a symbol. -/
def payload (s : Symbol) : Payload := ⟨s.address, s.classOffset, s.data⟩

/-- Which payloads a symbol of a given type and count stores. -/
inductive Stores : DataType → Nat → Payload → Prop where
  | floats (values : List Single) :
    Stores .float values.length { Payload.none with data := .floats values }
  | ints (values : List Int32) :
    Stores .int values.length { Payload.none with data := .ints values }
  | strings (values : List String) :
    Stores .string values.length { Payload.none with data := .strings values }
  | cls (n : Nat) (offset : Int32) : Stores .cls n { Payload.none with classOffset := offset }
  | func (n : Nat) (address : UInt32) : Stores .func n { Payload.none with address }
  | proto (n : Nat) (address : UInt32) : Stores .proto n { Payload.none with address }
  | inst (n : Nat) (address : UInt32) : Stores .inst n { Payload.none with address }
  | void (n : Nat) : Stores .void n .none

/-- Whether a symbol can be stored: its properties fit and its payload belongs to its type. A member
has no payload. -/
structure WellFormed (s : Symbol) : Prop extends s.Fits where
  member_none : s.isMember = true → s.payload = .none
  stores : s.isMember = false → Stores s.type s.count.toNat s.payload

/-- The texts that are written of a symbol. -/
def texts (s : Symbol) : List String :=
  s.name ::
    match s.data with
    | .strings values => values
    | _ => []

/-- The data a symbol is loaded with: a variable that holds a function holds it as a number. -/
def loadedData (s : Symbol) : SymbolData :=
  if s.type = .func ∧ s.isConst = false ∧ s.isMember = false then .ints [s.address.toInt32]
  else s.data

/-- A symbol as it is loaded. -/
def loaded (s : Symbol) : Symbol := { s with data := s.loadedData }

/-- What is read of the initial value of a symbol. -/
def rereadData (enc : Text.Encoding) : SymbolData → SymbolData
  | .strings values => .strings (values.map enc.reread)
  | data => data

/-- A symbol as it is loaded, with what an encoding reads back of its texts. A number that is too
large for a parent stands for none. -/
def reread (enc : Text.Encoding) (s : Symbol) : Symbol :=
  { s.loaded with
    name := enc.reread s.name
    parent := s.parent.filter (· < 0x80000000)
    data := rereadData enc s.loadedData }

variable {enc : Text.Encoding} {s : Symbol}

theorem reads_nameBytes (h : 0x0A ∉ enc.encode s.name.toList) :
    Reads (readName enc) (nameBytes enc s) (enc.reread s.name) := by
  rw [readName, nameBytes]
  split
  · next hempty =>
    have hname : s.name = "" := String.isEmpty_iff.1 hempty
    rw [hname, enc.reread_empty]
    exact (reads_word _ 0).bind (.pure "")
  · exact (reads_word _ 1).bind (reads_text h _)

theorem reads_sourceBytes (r : SourceRange) : Reads readSource (sourceBytes r) r :=
  (reads_word _ _).bind <| (reads_word _ _).bind <| (reads_word _ _).bind <|
    (reads_word _ _).bind <| (reads_word _ _).bind (.pure _)

theorem parentOfWord_getD (s : Symbol) :
    parentOfWord (s.parent.getD 0xFFFFFFFF) = s.parent.filter (· < 0x80000000) := by
  cases s.parent with
  | none => rfl
  | some i => simp [parentOfWord, Option.filter]

theorem loadedData_function (ht : s.type = .func) (hm : s.isMember = false)
    (hd : s.data = .none) :
    s.loadedData = if s.isConst then .none else .ints [s.address.toInt32] := by
  rw [loadedData, hd]
  cases s.isConst with
  | true => exact if_neg fun h => nomatch h.2.1
  | false => exact if_pos ⟨ht, rfl, hm⟩

theorem loadedData_member (hm : s.isMember = true) : s.loadedData = s.data :=
  if_neg fun h => Bool.false_ne_true (h.2.2.symm.trans hm)

theorem reads_payloadBytes (hm : s.isMember = false)
    (hs : Stores s.type s.count.toNat s.payload)
    (ht : ∀ t ∈ s.texts, 0x0A ∉ enc.encode t.toList) :
    Reads (readPayload enc s.type s.flags s.count) (payloadBytes enc s)
      ⟨s.address, s.classOffset, rereadData enc s.loadedData⟩ := by
  obtain ⟨name, index, type, flags, count, extra, address, classOffset, parent, source, data⟩ := s
  dsimp only [payload] at hs ⊢
  generalize hn : count.toNat = n at hs
  -- writer and reader branch on the same type, which decides the payload
  cases hs with
  | floats values =>
    rw [readPayload, hn]
    exact (Reads.times fun x _ => (reads_word _ x.bits).map Single.mk).bind_pure _
  | ints values =>
    rw [readPayload, hn]
    exact (Reads.times fun x _ => reads_signedWord _ x).bind_pure _
  | strings values =>
    rw [readPayload, hn]
    exact (Reads.times_map fun t h => reads_text (ht t (List.mem_cons_of_mem _ h)) _).bind_pure _
  | cls => exact (reads_signedWord _ classOffset).bind_pure _
  | func =>
    -- a number is read back as it is
    have hdata (c : Bool) : rereadData enc (if c then .none else .ints [address.toInt32]) =
        if c then .none else .ints [address.toInt32] := by
      cases c <;> rfl
    rw [loadedData_function rfl hm rfl, hdata]
    exact (reads_word _ address).bind_pure _
  | proto | inst => exact (reads_word _ address).bind_pure _
  | void => exact .pure _

theorem reads_ownPayload (hs : s.WellFormed) (ht : ∀ t ∈ s.texts, 0x0A ∉ enc.encode t.toList) :
    Reads (readOwnPayload enc s.type s.flags s.count)
      (if s.isMember then [] else payloadBytes enc s)
      ⟨s.address, s.classOffset, rereadData enc s.loadedData⟩ := by
  cases hm : s.isMember with
  | true =>
    have hread : readOwnPayload enc s.type s.flags s.count = pure .none := if_pos hm
    obtain ⟨haddress, hoffset, hdata⟩ := Payload.mk.inj (hs.member_none hm)
    rw [hread, loadedData_member hm, haddress, hoffset, hdata]
    exact .pure _
  | false =>
    have hread : readOwnPayload enc s.type s.flags s.count =
      readPayload enc s.type s.flags s.count := if_neg (ne_true_of_eq_false hm)
    rw [hread]
    exact reads_payloadBytes hm (hs.stores hm) ht

/-- A symbol is read from the bytes that are written of it. -/
theorem reads_symbolBytes (hs : s.WellFormed) (ht : ∀ t ∈ s.texts, 0x0A ∉ enc.encode t.toList) :
    Reads (read enc s.index) (symbolBytes enc s) (s.reread enc) := by
  have hcontent : Reads (readContent enc s.index (enc.reread s.name) s.extra s.count s.type s.flags)
      (sourceBytes s.source ++ ((if s.isMember then [] else payloadBytes enc s) ++
        LittleEndian.encode (s.parent.getD 0xFFFFFFFF))) (s.reread enc) := by
    refine (reads_sourceBytes s.source).bind ((reads_ownPayload hs ht).bind ?_)
    have hparent := (reads_word .parent (s.parent.getD 0xFFFFFFFF)).bind_pure fun w =>
      { s.reread enc with parent := parentOfWord w }
    rwa [parentOfWord_getD] at hparent
  have hnamed : Reads (readNamed enc s.index (enc.reread s.name))
      (LittleEndian.encode s.extra ++ (LittleEndian.encode (propertyWord s) ++
        (sourceBytes s.source ++ ((if s.isMember then [] else payloadBytes enc s) ++
          LittleEndian.encode (s.parent.getD 0xFFFFFFFF))))) (s.reread enc) := by
    refine (reads_word _ _).bind ((reads_word _ _).bind ?_)
    rw [propertyWord_count hs.toFits, propertyWord_type, propertyWord_flags hs.toFits,
      DataType.ofCode?_code]
    exact hcontent
  rw [read_eq, symbolBytes]
  simp only [List.append_assoc]
  exact (reads_nameBytes (ht _ List.mem_cons_self)).bind hnamed

/-- The symbols of a table are read one after the other, if they are numbered one by one. -/
theorem reads_table {l : List Symbol} (hs : ∀ s ∈ l, s.WellFormed)
    (ht : ∀ s ∈ l, ∀ t ∈ s.texts, 0x0A ∉ enc.encode t.toList) {i : UInt32}
    (hi : ∀ j (h : j < l.length), l[j].index = i + UInt32.ofNat j) :
    Reads (readTable enc l.length i) (l.flatMap (symbolBytes enc)) (l.map (reread enc)) := by
  induction l generalizing i with
  | nil => exact .pure _
  | cons s l ih =>
    have hindex : s.index = i := (hi 0 (Nat.succ_pos _)).trans (UInt32.add_zero i)
    have hrest (j : Nat) (h : j < l.length) : l[j].index = i + 1 + UInt32.ofNat j := by
      have hj := hi (j + 1) (Nat.succ_lt_succ h)
      rw [List.getElem_cons_succ] at hj
      rw [hj, UInt32.ofNat_add, UInt32.add_assoc, UInt32.add_comm 1]
      rfl
    rw [List.forall_mem_cons] at hs ht
    have hsymbol := reads_symbolBytes hs.1 ht.1
    rw [hindex] at hsymbol
    exact hsymbol.bind ((ih hs.2 ht.2 hrest).bind_pure _)

/-- If its texts are read back and its parent is none that is too large, a symbol is loaded as it
is. -/
theorem reread_eq_loaded (hp : ∀ i ∈ s.parent, i < 0x80000000)
    (ht : ∀ t ∈ s.texts, enc.Carries t) : s.reread enc = s.loaded := by
  have hname : enc.reread s.name = s.name := (ht _ List.mem_cons_self).reread_eq
  have hparent : s.parent.filter (· < 0x80000000) = s.parent := by
    cases h : s.parent with
    | none => rfl
    | some i => exact Option.filter_some_pos (decide_eq_true (hp i h))
  have hdata : rereadData enc s.loadedData = s.loadedData := by
    rw [loadedData]
    split
    · rfl
    · cases hd : s.data with
      | strings values =>
        refine congrArg SymbolData.strings ((List.map_congr_left fun t h => ?_).trans values.map_id)
        refine (ht t ?_).reread_eq
        rw [texts, hd]
        exact .tail _ h
      | _ => rfl
  rw [reread, hname, hparent, hdata]
  rfl

end Symbol

end ScriptMachine
