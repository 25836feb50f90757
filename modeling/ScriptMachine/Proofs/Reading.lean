import Mathlib.Logic.ExistsUnique
import ScriptMachine.Script.Loader

/-!
# What readers take

A reader of scripts takes its bytes from the front of a list and looks no further: it reads the same
value whatever follows these bytes, and it runs out of bytes wherever the list stops within them.
Both hold of the parts of a script, and they are kept when parts are read one after the other.

* `Reader.Reads` – which bytes a reader takes, and what it reads from them.
* `Reader.Needs` – whether a reader runs out of bytes before some bytes are complete.
* `Reader.Exact` – whether a reader takes and needs the same bytes, whenever it succeeds.
* `Script.load_prefix` – the bytes that a script is loaded from.
-/

namespace ScriptMachine

namespace Reader

variable {α β : Type} {x : Reader α} {f : α → Reader β} {t u : List UInt8} {a : α} {b : β}

theorem bind_eq_ok {bs rest : List UInt8} (h : (x >>= f) bs = .ok (b, rest)) :
    ∃ a mid, x bs = .ok (a, mid) ∧ f a mid = .ok (b, rest) := by
  have hb : (x >>= f) bs = (x bs).bind fun p => f p.1 p.2 := rfl
  rw [hb] at h
  rcases ha : x bs with e | ⟨a, mid⟩
  · rw [ha] at h
    cases h
  · rw [ha] at h
    exact ⟨a, mid, rfl, h⟩

theorem bind_of_ok {bs mid : List UInt8} (h : x bs = .ok (a, mid)) : (x >>= f) bs = f a mid := by
  have hb : (x >>= f) bs = (x bs).bind fun p => f p.1 p.2 := rfl
  rw [hb, h]
  rfl

theorem bind_of_error {bs : List UInt8} {e : ReadFault} (h : x bs = .error e) :
    (x >>= f) bs = .error e := by
  have hb : (x >>= f) bs = (x bs).bind fun p => f p.1 p.2 := rfl
  rw [hb, h]
  rfl

/-! ## Taking bytes -/

/-- Whether a reader takes some bytes from the front of every list that begins with them, no more
and no less, and what it reads from them. -/
def Reads (x : Reader α) (taken : List UInt8) (a : α) : Prop :=
  ∀ rest, x (taken ++ rest) = .ok (a, rest)

namespace Reads

protected theorem pure (a : α) : Reads (pure a) [] a := fun _ => rfl

protected theorem bind (hx : Reads x t a) (hf : Reads (f a) u b) :
    Reads (x >>= f) (t ++ u) b := by
  intro rest
  rw [List.append_assoc, bind_of_ok (hx _)]
  exact hf rest

/-- The last part of a reader, behind which nothing is taken. -/
theorem bind_pure (hx : Reads x t a) (g : α → β) : Reads (x >>= fun a => pure (g a)) t (g a) := by
  have h := hx.bind (f := fun a => pure (g a)) (.pure (g a))
  rwa [List.append_nil] at h

protected theorem map (hx : Reads x t a) (g : α → β) : Reads (g <$> x) t (g a) := by
  rw [map_eq_pure_bind]
  exact hx.bind_pure g

/-- A reader that takes one item takes a list of items one after the other. -/
theorem times_map {γ : Type} {g : γ → List UInt8} {f : γ → α} {l : List γ}
    (h : ∀ c ∈ l, Reads x (g c) (f c)) :
    Reads (Reader.times x l.length) (l.flatMap g) (l.map f) := by
  induction l with
  | nil => exact .pure _
  | cons c l ih =>
    obtain ⟨hc, hl⟩ := List.forall_mem_cons.1 h
    exact hc.bind ((ih hl).bind_pure _)

theorem times {g : α → List UInt8} {l : List α} (h : ∀ c ∈ l, Reads x (g c) c) :
    Reads (Reader.times x l.length) (l.flatMap g) l := by
  have hmap := times_map (f := id) h
  rwa [List.map_id] at hmap

end Reads

/-- Whether a reader runs out of bytes on every list that stops within some bytes. -/
def Needs (x : Reader α) (taken : List UInt8) : Prop :=
  ∀ n < taken.length, ∃ what, x (taken.take n) = .error (.endOfBytes what)

/-- Whether a reader takes the bytes it needs from the front of the list, whenever it succeeds. -/
def Exact (x : Reader α) : Prop :=
  ∀ bs a rest, x bs = .ok (a, rest) →
    ∃ taken, taken ++ rest = bs ∧ Reads x taken a ∧ Needs x taken

namespace Exact

protected theorem pure (a : α) : Exact (pure a : Reader α) := by
  intro bs c rest h
  obtain ⟨rfl, rfl⟩ := Prod.mk.inj (Except.ok.inj h)
  exact ⟨[], rfl, .pure _, fun n hn => absurd hn (Nat.not_lt_zero n)⟩

protected theorem throw (e : ReadFault) : Exact (throw e : Reader α) :=
  fun _ _ _ h => nomatch h

/-- A list that stops within two parts stops within the first of them or within the second. -/
protected theorem bind (hx : Exact x) (hf : ∀ a, Exact (f a)) : Exact (x >>= f) := by
  intro bs b rest h
  obtain ⟨a, mid, ha, hb⟩ := bind_eq_ok h
  obtain ⟨t, rfl, hxt, hnt⟩ := hx _ _ _ ha
  obtain ⟨u, rfl, hfu, hnu⟩ := hf a _ _ _ hb
  refine ⟨t ++ u, List.append_assoc .., hxt.bind hfu, fun n hn => ?_⟩
  rw [List.length_append] at hn
  rcases Nat.lt_or_ge n t.length with hlt | hge
  · obtain ⟨what, he⟩ := hnt n hlt
    rw [List.take_append_of_le_length (Nat.le_of_lt hlt)]
    exact ⟨what, bind_of_error he⟩
  · obtain ⟨what, he⟩ := hnu (n - t.length) (by omega)
    rw [List.take_append, List.take_of_length_le hge, bind_of_ok (hxt _)]
    exact ⟨what, he⟩

protected theorem map {g : α → β} (hx : Exact x) : Exact (g <$> x) := by
  rw [map_eq_pure_bind]
  exact hx.bind fun a => .pure _

/-- A reader that takes and needs the same bytes for one item does so for a list of items. -/
theorem times (hx : Exact x) (n : Nat) : Exact (Reader.times x n) := by
  induction n with
  | zero => exact .pure _
  | succ n ih => exact hx.bind fun a => ih.bind fun l => .pure _

end Exact

/-! ## Bytes, words and lines -/

theorem reads_byte (what : Field) (b : UInt8) : Reads (byte what) [b] b := fun _ => rfl

theorem exact_byte (what : Field) : Exact (byte what) := by
  intro bs b rest h
  cases bs with
  | nil => cases h
  | cons c bs =>
    obtain ⟨rfl, rfl⟩ := Prod.mk.inj (Except.ok.inj h)
    refine ⟨[c], rfl, reads_byte what c, fun n hn => ?_⟩
    obtain rfl : n = 0 := Nat.lt_one_iff.1 hn
    exact ⟨what, rfl⟩

theorem exact_word (what : Field) : Exact (word what) := by
  intro bs w rest h
  match bs, h with
  | c₀ :: c₁ :: c₂ :: c₃ :: bs, h =>
    obtain ⟨rfl, rfl⟩ := Prod.mk.inj (Except.ok.inj h)
    refine ⟨[c₀, c₁, c₂, c₃], rfl, fun _ => rfl, fun n hn => ⟨what, ?_⟩⟩
    -- fewer than four bytes are no word
    match n, hn with
    | 0, _ | 1, _ | 2, _ | 3, _ => rfl

theorem exact_signedWord (what : Field) : Exact (signedWord what) :=
  (exact_word what).map

theorem reads_bytes (what : Field) (t : List UInt8) : Reads (bytes t.length what) t t := by
  intro rest
  have hn : t.length ≤ (t ++ rest).length := List.length_append ▸ Nat.le_add_right ..
  rw [bytes, if_pos hn, List.take_left, List.drop_left]

theorem exact_bytes (n : Nat) (what : Field) : Exact (bytes n what) := by
  intro bs t rest h
  rw [bytes] at h
  split at h
  · next hn =>
    obtain ⟨rfl, rfl⟩ := Prod.mk.inj (Except.ok.inj h)
    have hlen : (bs.take n).length = n := List.length_take_of_le hn
    have hreads := reads_bytes what (bs.take n)
    rw [hlen] at hreads
    refine ⟨bs.take n, List.take_append_drop n bs, hreads, fun k hk => ⟨what, ?_⟩⟩
    rw [bytes, if_neg]
    rw [List.length_take]
    omega
  · cases h

theorem reads_skip (what : Field) (t : List UInt8) : Reads (skip t.length what) t () :=
  (reads_bytes what t).map _

theorem exact_skip (n : Nat) (what : Field) : Exact (skip n what) :=
  (exact_bytes n what).map

/-- A line is cut in front of the first line feed. -/
theorem cutLine_eq_some {bs raw rest : List UInt8} (h : cutLine bs = some (raw, rest)) :
    raw ++ 0x0A :: rest = bs ∧ 0x0A ∉ raw := by
  induction bs generalizing raw with
  | nil => cases h
  | cons b bs ih =>
    rw [cutLine] at h
    split at h
    · next hb =>
      obtain ⟨rfl, rfl⟩ := Prod.mk.inj (Option.some.inj h)
      exact ⟨congrArg (· :: _) hb.symm, List.not_mem_nil⟩
    · next hb =>
      obtain ⟨⟨l, r⟩, hcut, heq⟩ := Option.map_eq_some_iff.1 h
      obtain ⟨rfl, rfl⟩ := Prod.mk.inj heq
      obtain ⟨rfl, hl⟩ := ih hcut
      exact ⟨rfl, List.not_mem_cons_of_ne_of_not_mem (Ne.symm hb) hl⟩

theorem cutLine_append {raw : List UInt8} (h : 0x0A ∉ raw) (rest : List UInt8) :
    cutLine (raw ++ 0x0A :: rest) = some (raw, rest) := by
  induction raw with
  | nil => rfl
  | cons b raw ih =>
    rw [List.cons_append, cutLine, if_neg (List.ne_of_not_mem_cons h).symm,
      ih (List.not_mem_of_not_mem_cons h)]
    rfl

theorem cutLine_of_notMem {bs : List UInt8} (h : 0x0A ∉ bs) : cutLine bs = none := by
  induction bs with
  | nil => rfl
  | cons b bs ih =>
    rw [cutLine, if_neg (List.ne_of_not_mem_cons h).symm, ih (List.not_mem_of_not_mem_cons h)]
    rfl

theorem reads_line (enc : Text.Encoding) (what : Field) {raw : List UInt8} (h : 0x0A ∉ raw) :
    Reads (line enc what) (raw ++ [0x0A]) (String.ofList (enc.decode raw)) := by
  intro rest
  rw [List.append_assoc, List.singleton_append, line, cutLine_append h]

theorem exact_line (enc : Text.Encoding) (what : Field) : Exact (line enc what) := by
  intro bs s rest h
  rw [line] at h
  split at h
  · next raw rest' hcut =>
    obtain ⟨rfl, rfl⟩ := Prod.mk.inj (Except.ok.inj h)
    obtain ⟨rfl, hraw⟩ := cutLine_eq_some hcut
    refine ⟨raw ++ [0x0A], List.append_assoc .., reads_line enc what hraw, fun n hn => ⟨what, ?_⟩⟩
    -- the line feed is the last of the bytes, so a shorter list has none
    rw [List.length_append, List.length_singleton] at hn
    have hcut : cutLine ((raw ++ [0x0A]).take n) = none := by
      rw [List.take_append_of_le_length (Nat.le_of_lt_succ hn)]
      exact cutLine_of_notMem fun hmem => hraw (List.mem_of_mem_take hmem)
    rw [line, hcut]
  · cases h

end Reader

open Reader (Exact exact_byte exact_word exact_signedWord exact_bytes exact_skip exact_line)

namespace Symbol

theorem exact_readPayload (enc : Text.Encoding) (type : DataType) (flags : SymbolFlags)
    (count : UInt32) : Exact (readPayload enc type flags count) := by
  cases type with
  | float => exact (Exact.times (exact_word _).map _).bind fun _ => .pure _
  | int => exact (Exact.times (exact_signedWord _) _).bind fun _ => .pure _
  | string => exact (Exact.times (exact_line enc _) _).bind fun _ => .pure _
  | cls => exact (exact_signedWord _).bind fun _ => .pure _
  | func | proto | inst => exact (exact_word _).bind fun _ => .pure _
  | void => exact .pure _

theorem exact_readSource : Exact readSource :=
  (exact_word _).bind fun _ => (exact_word _).bind fun _ => (exact_word _).bind fun _ =>
    (exact_word _).bind fun _ => (exact_word _).bind fun _ => .pure _

/-- Reads the name in front of a symbol. -/
def readName (enc : Text.Encoding) : Reader String := do
  let named ← Reader.word .nameFlag
  if named = 0 then pure "" else Reader.line enc .name

/-- Reads the payload of a symbol, which a member does not have. -/
def readOwnPayload (enc : Text.Encoding) (type : DataType) (flags : SymbolFlags)
    (count : UInt32) : Reader Payload :=
  if flags.contains .member then pure .none else readPayload enc type flags count

/-- Reads what follows the properties of a symbol. -/
def readContent (enc : Text.Encoding) (index : UInt32) (name : String) (extra count : UInt32)
    (type : DataType) (flags : SymbolFlags) : Reader Symbol := do
  let source ← readSource
  let payload ← readOwnPayload enc type flags count
  let parent ← Reader.word .parent
  return {
    name, index, type, flags, count, extra
    address := payload.address
    classOffset := payload.classOffset
    parent := parentOfWord parent
    source
    data := payload.data }

/-- Reads what follows the name of a symbol. -/
def readNamed (enc : Text.Encoding) (index : UInt32) (name : String) : Reader Symbol := do
  let extra ← Reader.word .extra
  let properties ← Reader.word .properties
  match DataType.ofCode? ((properties >>> 12) &&& 0xF) with
  | none => throw (.unknownType index name ((properties >>> 12) &&& 0xF))
  | some type =>
    readContent enc index name extra (properties &&& 0xFFF) type
      ⟨(properties >>> 16) &&& SymbolFlags.stored⟩

/-- A symbol is read in parts: its name, its properties and what they ask for. -/
theorem read_eq (enc : Text.Encoding) (i : UInt32) :
    read enc i = readName enc >>= readNamed enc i := by
  rw [read, readName, bind_assoc]
  refine congrArg _ (funext fun named => ?_)
  dsimp only
  -- with a name and without, what follows is read alike
  split
  all_goals
    refine congrArg _ (funext fun name => congrArg _ (funext fun extra =>
      congrArg _ (funext fun properties => ?_)))
    cases DataType.ofCode? ((properties >>> 12) &&& 0xF) with
    | none => rfl
    | some type =>
      dsimp only [readContent]
      refine congrArg _ (funext fun source => ?_)
      rw [readOwnPayload]
      split <;> rfl

theorem exact_readName (enc : Text.Encoding) : Exact (readName enc) := by
  refine (exact_word _).bind fun named => ?_
  split
  · exact .pure _
  · exact exact_line enc _

theorem exact_readOwnPayload (enc : Text.Encoding) (type : DataType) (flags : SymbolFlags)
    (count : UInt32) : Exact (readOwnPayload enc type flags count) := by
  rw [readOwnPayload]
  split
  · exact .pure _
  · exact exact_readPayload enc type flags count

theorem exact_readNamed (enc : Text.Encoding) (i : UInt32) (name : String) :
    Exact (readNamed enc i name) := by
  refine (exact_word _).bind fun extra => (exact_word _).bind fun properties => ?_
  split
  · exact .throw _
  · exact exact_readSource.bind fun _ => (exact_readOwnPayload enc _ _ _).bind fun _ =>
      (exact_word _).bind fun _ => .pure _

/-- A symbol takes the bytes that its own name, type, flags and count ask for. -/
theorem exact_read (enc : Text.Encoding) (i : UInt32) : Exact (read enc i) := by
  rw [read_eq]
  exact (exact_readName enc).bind (exact_readNamed enc i)

theorem exact_readTable (enc : Text.Encoding) (n : Nat) :
    ∀ i, Exact (readTable enc n i) := by
  induction n with
  | zero => exact fun i => .pure _
  | succ n ih => exact fun i => (exact_read enc i).bind fun _ => (ih _).bind fun _ => .pure _

end Symbol

namespace Script

theorem exact_read (enc : Text.Encoding) : Exact (read enc) :=
  (exact_byte _).bind fun _ => (exact_word _).bind fun _ => (exact_skip _ _).bind fun _ =>
    (Symbol.exact_readTable enc _ _).bind fun _ => (exact_word _).bind fun _ =>
      (exact_bytes _ _).bind fun _ => .pure _

variable {enc : Text.Encoding} {bytes : List UInt8} {p : Script}

theorem load_eq_ok (h : load enc bytes = .ok p) : ∃ rest, read enc bytes = .ok (p, rest) := by
  rw [load] at h
  split at h
  · next script rest hp => exact ⟨rest, Except.ok.inj h ▸ hp⟩
  · cases h
  · cases h

theorem load_of_read {rest : List UInt8} (h : read enc bytes = .ok (p, rest)) :
    load enc bytes = .ok p := by
  have hrun : (read enc).run bytes = .ok (p, rest) := h
  rw [load, hrun]

theorem load_of_endOfBytes {what : Field} (h : read enc bytes = .error (.endOfBytes what)) :
    load enc bytes = .error (.load (.truncated what (faultOffset bytes.length what))) := by
  have hrun : (read enc).run bytes = .error (.endOfBytes what) := h
  rw [load, hrun]

/-- Whether a list of bytes stores a script in its first `k` bytes: shorter lists are reported to be
cut short, and nothing behind these bytes makes a difference. -/
structure StoredIn (enc : Text.Encoding) (bytes : List UInt8) (p : Script) (k : Nat) : Prop where
  le_length : k ≤ bytes.length
  cut_short : ∀ j < k, ∃ what,
    load enc (bytes.take j) = .error (.load (.truncated what (faultOffset j what)))
  load_append : ∀ more, load enc (bytes.take k ++ more) = .ok p

/-- What is long enough for a script to be loaded is not too short for it. -/
theorem StoredIn.le {k l : Nat} (hk : StoredIn enc bytes p k) (hl : StoredIn enc bytes p l) :
    k ≤ l := by
  refine Nat.le_of_not_lt fun hlt => ?_
  obtain ⟨what, he⟩ := hk.cut_short l hlt
  have hload := hl.load_append []
  rw [List.append_nil, he] at hload
  cases hload

/-- A script is loaded from the first bytes of the list, up to exactly one place: wherever the list
stops before this place, loading reports that the script is cut short, and whatever follows this
place, the same script is loaded. -/
theorem load_prefix (h : load enc bytes = .ok p) : ∃! k, StoredIn enc bytes p k := by
  obtain ⟨rest, hr⟩ := load_eq_ok h
  obtain ⟨taken, rfl, hreads, hneeds⟩ := exact_read enc _ _ _ hr
  -- the place is where the bytes end that the loader takes
  have hstored : StoredIn enc (taken ++ rest) p taken.length := by
    refine ⟨?_, fun j hj => ?_, fun more => ?_⟩
    · rw [List.length_append]
      exact Nat.le_add_right ..
    · obtain ⟨what, he⟩ := hneeds j hj
      have hload := load_of_endOfBytes he
      rw [List.length_take_of_le (Nat.le_of_lt hj)] at hload
      rw [List.take_append_of_le_length (Nat.le_of_lt hj)]
      exact ⟨what, hload⟩
    · rw [List.take_left]
      exact load_of_read (hreads more)
  exact ⟨taken.length, hstored, fun k hk => Nat.le_antisymm (hk.le hstored) (hstored.le hk)⟩

/-- A script with a constant text. -/
def text : Script :=
  .ofParts 50
    [{ Symbol.blank "A" 0 .string none with flags := .const, data := .strings ["hi"] }] #[60]

/-- The script as it is compiled. -/
def textBytes : List UInt8 :=
  50 :: [1, 0, 1].flatMap LittleEndian.encode ++ [65, 10] ++
    [0, 0x13001, 0, 0, 0, 0, 0].flatMap LittleEndian.encode ++ [104, 105, 10] ++
    [0xFFFFFFFF, 1].flatMap LittleEndian.encode ++ [60]

/-- The script is stored in a part of any list that goes on behind it. -/
theorem load_prefix_of_text :
    load .windows1252 (textBytes ++ [1, 2, 3]) = .ok text ∧
      ∃! k, StoredIn .windows1252 (textBytes ++ [1, 2, 3]) text k := by
  have hload : load .windows1252 (textBytes ++ [1, 2, 3]) = .ok text := rfl
  exact ⟨hload, load_prefix hload⟩

end Script

end ScriptMachine
