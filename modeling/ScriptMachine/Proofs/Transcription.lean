import Mathlib.Data.List.Forall2
import ScriptMachine.Proofs.Extension

/-!
# Texts on a code page

A code page writes each character it has as one byte, and reads the byte as the character. Still,
what is written is not always what is read, since bytes that look like a byte order mark at the
start of a text change the encoding it is read with. A text that starts with the characters of these
bytes loses them, and is read back shorter than it was.

* `Text.CodePage.Has` – whether a code page has all characters of a text.
* `Text.CodePage.decode_encode` – such a text is read back, were it not for byte order marks.
* `Text.CodePage.notMem_encode` – no line ends in what is written.
* `Text.Marked` – whether bytes start with a byte order mark.
* `Text.decode_encode_western`, `Text.reread1252_eq_self_iff` – what is read of a text, and when it
  is the same.
* `Assembler.ReadsBack` – whether a text of a script is what is read of another one.
-/

namespace ScriptMachine.Text

namespace CodePage

variable {p : CodePage} {c : Char} {b : UInt8}

/-- The byte of a character is read as the character. -/
theorem charOf_of_byteOf? (h : p.byteOf? c = some b) : p.charOf b = c := by
  rw [byteOf?] at h
  split at h
  · next hc =>
    obtain rfl := Option.some.inj h
    have hb : (UInt8.ofNat c.toNat).toNat = c.toNat :=
      UInt8.toNat_ofNat_of_lt' (Nat.lt_trans hc (by decide))
    have hlt : UInt8.ofNat c.toNat < 0x80 := by
      rw [UInt8.lt_iff_toNat_lt, hb]
      exact hc
    rw [charOf, if_pos hlt, hb, Char.ofNat_toNat]
  · obtain ⟨i, hi, rfl⟩ := Option.map_eq_some_iff.1 h
    obtain ⟨hlt, hget, -⟩ := List.idxOf?_eq_some_iff.1 hi
    have hlength := hlt
    rw [length_upperHalf] at hlength
    have hb : (UInt8.ofNat (0x80 + i)).toNat = 0x80 + i :=
      UInt8.toNat_ofNat_of_lt' (show 0x80 + i < 256 by omega)
    have hge : ¬ UInt8.ofNat (0x80 + i) < 0x80 := by
      rw [UInt8.lt_iff_toNat_lt, hb]
      exact Nat.not_lt.2 (Nat.le_add_right _ _)
    have htoNat : (0x80 : UInt8).toNat = 0x80 := rfl
    rw [charOf, if_neg hge, hb, Nat.add_sub_cancel_left, List.getD_eq_getElem?_getD,
      List.getElem?_eq_getElem hlt, hget, Option.getD_some, Char.ofNat_toNat]

/-- Whether a code page has all characters of a text. -/
def Has (p : CodePage) (cs : List Char) : Prop := ∀ c ∈ cs, (p.byteOf? c).isSome = true

-- named, since every character there is would be tried otherwise
instance (p : CodePage) (cs : List Char) : Decidable (p.Has cs) :=
  List.decidableBAll (fun c => (p.byteOf? c).isSome = true) cs

/-- Each character that a page has is one byte. -/
theorem encode_cons (hb : p.byteOf? c = some b) (cs : List Char) :
    p.encode (c :: cs) = b :: p.encode cs := by
  rw [encode, List.flatMap_cons, hb]
  rfl

/-- The bytes of a text are read as the text. -/
theorem decode_encode {cs : List Char} (h : p.Has cs) : p.decode (p.encode cs) = cs := by
  induction cs with
  | nil => rfl
  | cons c cs ih =>
    obtain ⟨hc, hcs⟩ := List.forall_mem_cons.1 h
    obtain ⟨b, hb⟩ := Option.isSome_iff_exists.1 hc
    rw [encode_cons hb, decode, List.map_cons, charOf_of_byteOf? hb]
    exact congrArg (c :: ·) (ih hcs)

theorem length_encode {cs : List Char} (h : p.Has cs) : (p.encode cs).length = cs.length := by
  have hlength := congrArg List.length (decode_encode h)
  rwa [decode, List.length_map] at hlength

/-- No line ends in a character reference. -/
theorem notMem_reference (c : Char) : 0x0A ∉ reference c := by
  intro h
  obtain ⟨d, hd, hbyte⟩ := List.mem_map.1 h
  rw [List.mem_append, List.mem_append] at hd
  have hdigit : d = '&' ∨ d = '#' ∨ d = ';' ∨ d.isDigit = true := by
    rcases hd with (hd | hd) | hd
    · simp only [List.mem_cons, List.not_mem_nil, or_false] at hd
      rcases hd with rfl | rfl
      · exact .inl rfl
      · exact .inr (.inl rfl)
    · exact .inr (.inr (.inr (Nat.isDigit_of_mem_toDigits (by decide) (by decide) hd)))
    · exact .inr (.inr (.inl (List.mem_singleton.1 hd)))
  rcases hdigit with rfl | rfl | rfl | hdigit
  · cases hbyte
  · cases hbyte
  · cases hbyte
  · have hrange : 48 ≤ d.toNat ∧ d.toNat ≤ 57 := by
      simpa [Char.isDigit, UInt32.le_iff_toNat_le] using hdigit
    have htoNat : (UInt8.ofNat d.toNat).toNat = d.toNat :=
      UInt8.toNat_ofNat_of_lt' (Nat.lt_of_le_of_lt hrange.2 (by decide))
    rw [hbyte] at htoNat
    have hten : d.toNat = 10 := htoNat.symm
    omega

/-- No line ends in the bytes of a text in which none ends. -/
theorem notMem_encode {cs : List Char} (h : '\n' ∉ cs) : 0x0A ∉ p.encode cs := by
  intro hmem
  obtain ⟨c, hc, hb⟩ := List.mem_flatMap.1 hmem
  split at hb
  · next b hbyte =>
    obtain rfl := List.mem_singleton.1 hb
    have hchar := charOf_of_byteOf? hbyte
    have hfeed : p.charOf 0x0A = '\n' := rfl
    rw [hfeed] at hchar
    exact h (hchar ▸ hc)
  · exact notMem_reference c hb

end CodePage

/-! ## How long a text can be -/

/-- A byte completes a character or begins one. -/
theorem Utf8.length_start_le (b : UInt8) :
    (Utf8.start b).2.length + (if (Utf8.start b).1.isSome then 1 else 0) ≤ 1 := by
  rw [Utf8.start]
  split
  · exact Nat.le_refl _
  split
  · exact Nat.le_refl _
  split
  · exact Nat.le_refl _
  split
  · exact Nat.le_refl _
  · exact Nat.le_refl _

theorem Utf8.length_decodeFrom_le (bs : List UInt8) : ∀ state : Option Utf8.Pending,
    (Utf8.decodeFrom state bs).length ≤ bs.length + if state.isSome then 1 else 0 := by
  induction bs with
  | nil =>
    intro state
    cases state with
    | none => exact Nat.le_refl _
    | some s => exact Nat.le_refl _
  | cons b bs ih =>
    intro state
    have hnext : (Utf8.next state b).2.length + (if (Utf8.next state b).1.isSome then 1 else 0) ≤
        1 + if state.isSome then 1 else 0 := by
      unfold Utf8.next
      split
      · simpa using length_start_le b
      · split
        · split
          · simp
          · simp
        · have hstart := length_start_le b
          simp only [List.length_cons, Option.isSome_some, if_true]
          omega
    rw [Utf8.decodeFrom]
    have hrest := ih (Utf8.next state b).1
    simp only [List.length_append, List.length_cons]
    omega

theorem Utf16.length_decodeFrom_le (order : ByteOrder) (lead : Option Nat) (bs : List UInt8) :
    (Utf16.decodeFrom order lead bs).length ≤ bs.length + if lead.isSome then 1 else 0 := by
  fun_induction Utf16.decodeFrom order lead bs
  case case6 => exact Nat.le_add_right _ _
  case case7 hlead => simp [hlead]
  case case8 => exact Nat.zero_le _
  -- two bytes give at most two characters, one of them for a surrogate that was waiting
  all_goals
    next ih =>
    simp only [List.length_cons, Option.isSome_some, Option.isSome_none, Bool.false_eq_true,
      if_true, if_false] at ih ⊢
    omega

/-! ## Byte order marks -/

/-- The texts that the Western page writes as byte order marks. -/
def markTexts : List (List Char) := [['\u00EF', '\u00BB', '\u00BF'], ['\u00FF', '\u00FE'],
  ['\u00FE', '\u00FF']]

/-- Whether a text starts like a byte order mark. -/
def Marked (cs : List Char) : Prop := ∃ mark ∈ markTexts, mark <+: cs

instance (cs : List Char) : Decidable (Marked cs) :=
  inferInstanceAs (Decidable (∃ mark ∈ markTexts, mark <+: cs))

/-- What is read of a text that the Western page writes: a byte order mark is taken off, and the
bytes behind it are read in the encoding that it names. -/
def reread1252 (cs : List Char) : List Char :=
  match cs with
  | '\u00EF' :: '\u00BB' :: '\u00BF' :: rest => Utf8.decode (CodePage.western.encode rest)
  | '\u00FF' :: '\u00FE' :: rest => Utf16.decode .little (CodePage.western.encode rest)
  | '\u00FE' :: '\u00FF' :: rest => Utf16.decode .big (CodePage.western.encode rest)
  | _ => cs

/-- The bytes of byte order marks, as characters of the Western page. -/
theorem charOf_western : CodePage.western.charOf 0xEF = '\u00EF' ∧
    CodePage.western.charOf 0xBB = '\u00BB' ∧ CodePage.western.charOf 0xBF = '\u00BF' ∧
    CodePage.western.charOf 0xFF = '\u00FF' ∧ CodePage.western.charOf 0xFE = '\u00FE' := by
  decide

/-- Bytes that do not start with a byte order mark are read in the encoding that is asked for. -/
theorem Encoding.decode_eq_decodeBody {enc : Encoding} {bs : List UInt8}
    (h : ∀ rest, bs ≠ 0xEF :: 0xBB :: 0xBF :: rest ∧ bs ≠ 0xFF :: 0xFE :: rest ∧
      bs ≠ 0xFE :: 0xFF :: rest) : enc.decode bs = enc.decodeBody bs := by
  unfold decode
  split
  · next rest => exact absurd rfl (h rest).1
  · next rest => exact absurd rfl (h rest).2.1
  · next rest => exact absurd rfl (h rest).2.2
  · rfl

/-- A text on the Western page is read like this. -/
theorem decode_encode_western {cs : List Char} (h : CodePage.western.Has cs) :
    Encoding.windows1252.decode (Encoding.windows1252.encode cs) = reread1252 cs := by
  have hdecode := CodePage.decode_encode h
  unfold reread1252
  split
  · rfl
  · rfl
  · rfl
  · next h₁ h₂ h₃ =>
    obtain ⟨hEF, hBB, hBF, hFF, hFE⟩ := charOf_western
    refine Eq.trans (Encoding.decode_eq_decodeBody fun rest =>
      ⟨fun he => ?_, fun he => ?_, fun he => ?_⟩) hdecode
    -- the bytes of a mark would be read as its characters
    all_goals
      change CodePage.western.encode cs = _ at he
      rw [he] at hdecode
      simp only [CodePage.decode, List.map_cons, hEF, hBB, hBF, hFF, hFE] at hdecode
    · exact h₁ _ hdecode.symm
    · exact h₂ _ hdecode.symm
    · exact h₃ _ hdecode.symm

/-- A text is read back exactly if it does not start like a byte order mark. -/
theorem reread1252_eq_self_iff {cs : List Char} (h : CodePage.western.Has cs) :
    reread1252 cs = cs ↔ ¬ Marked cs := by
  -- what stands behind a mark is read as no more characters than it has
  have hlength {n : Nat} {rest : List Char} (hrest : CodePage.western.Has rest) {read : List Char}
      (hread : read.length ≤ (CodePage.western.encode rest).length) (hn : rest.length < n) :
      read.length < n := by
    rw [CodePage.length_encode hrest] at hread
    omega
  unfold reread1252
  split
  · next rest =>
    refine iff_of_false (fun he => ?_) (not_not_intro ⟨_, .head _, rest, rfl⟩)
    have hlt := hlength (n := rest.length + 3)
      (fun c hc => h c (.tail _ (.tail _ (.tail _ hc)))) (Utf8.length_decodeFrom_le _ none)
      (Nat.lt_add_of_pos_right (by decide))
    exact Nat.lt_irrefl _ (Nat.lt_of_lt_of_eq hlt (congrArg List.length he).symm)
  · next rest =>
    refine iff_of_false (fun he => ?_) (not_not_intro ⟨_, .tail _ (.head _), rest, rfl⟩)
    have hlt := hlength (n := rest.length + 2) (fun c hc => h c (.tail _ (.tail _ hc)))
      (Utf16.length_decodeFrom_le .little none _) (Nat.lt_add_of_pos_right (by decide))
    exact Nat.lt_irrefl _ (Nat.lt_of_lt_of_eq hlt (congrArg List.length he).symm)
  · next rest =>
    refine iff_of_false (fun he => ?_)
      (not_not_intro ⟨_, .tail _ (.tail _ (.head _)), rest, rfl⟩)
    have hlt := hlength (n := rest.length + 2) (fun c hc => h c (.tail _ (.tail _ hc)))
      (Utf16.length_decodeFrom_le .big none _) (Nat.lt_add_of_pos_right (by decide))
    exact Nat.lt_irrefl _ (Nat.lt_of_lt_of_eq hlt (congrArg List.length he).symm)
  · next h₁ h₂ h₃ =>
    refine iff_of_true rfl ?_
    rintro ⟨mark, hmark, rest, rfl⟩
    simp only [markTexts, List.mem_cons, List.not_mem_nil, or_false] at hmark
    rcases hmark with rfl | rfl | rfl
    · exact h₁ rest rfl
    · exact h₂ rest rfl
    · exact h₃ rest rfl

/-! ## Names in upper case -/

/-- A letter that has another case is one of ASCII, and so is the other. -/
theorem toNat_lt_of_toUpper_ne {c : Char} (h : c.toUpper ≠ c) :
    c.toNat < 0x80 ∧ c.toUpper.toNat < 0x80 := by
  obtain ⟨hlow, hhigh, hupper⟩ := (toUpper_cases c).resolve_left h
  omega

/-- A page that has a name has it in upper case. -/
theorem CodePage.Has.foldName {p : CodePage} {s : String} (h : p.Has s.toList) :
    p.Has (foldName s) := by
  intro d hd
  obtain ⟨c, hc, rfl⟩ := List.mem_map.1 hd
  by_cases hcase : c.toUpper = c
  · rw [hcase]
    exact h c hc
  · rw [byteOf?, if_pos (toNat_lt_of_toUpper_ne hcase).2]
    rfl

theorem eq_toUpper_iff {c d : Char} (hd : 0x80 ≤ d.toNat) : d = c.toUpper ↔ d = c := by
  by_cases hcase : c.toUpper = c
  · rw [hcase]
  · obtain ⟨hc, hupper⟩ := toNat_lt_of_toUpper_ne hcase
    refine iff_of_false ?_ ?_
    · rintro rfl
      omega
    · rintro rfl
      omega

theorem prefix_map_toUpper {mark : List Char} (h : ∀ d ∈ mark, 0x80 ≤ d.toNat) :
    ∀ cs : List Char, mark <+: cs.map Char.toUpper ↔ mark <+: cs := by
  induction mark with
  | nil => exact fun cs => iff_of_true List.nil_prefix List.nil_prefix
  | cons d mark ih =>
    intro cs
    obtain ⟨hd, hmark⟩ := List.forall_mem_cons.1 h
    cases cs with
    | nil => exact Iff.rfl
    | cons c cs =>
      rw [List.map_cons, List.cons_prefix_cons, List.cons_prefix_cons, eq_toUpper_iff hd,
        ih hmark]

/-- A name starts like a byte order mark in upper case exactly if it does so. -/
theorem marked_foldName (s : String) : Marked (foldName s) ↔ Marked s.toList := by
  have hmarks : ∀ mark ∈ markTexts, mark.all (0x80 ≤ ·.toNat) = true := by decide
  refine exists_congr fun mark => and_congr_right fun hmark => ?_
  have hhigh (d : Char) (hd : d ∈ mark) : 0x80 ≤ d.toNat :=
    of_decide_eq_true (List.all_eq_true.1 (hmarks mark hmark) d hd)
  exact prefix_map_toUpper hhigh s.toList

end ScriptMachine.Text

namespace ScriptMachine.Assembler

open Text (Marked reread1252)

/-! ## Texts of assembled scripts -/

/-- Whether a text is what is read of another one that the Western page has: the same text, unless
that starts like a byte order mark. -/
structure ReadsBack (t t' : String) : Prop where
  eq_reread : Text.CodePage.western.Has t.toList → t' = String.ofList (reread1252 t.toList)
  eq_iff : Text.CodePage.western.Has t.toList → (t' = t ↔ ¬ Marked t.toList)

theorem readsBack_reread (t : String) : ReadsBack t (Text.Encoding.windows1252.reread t) := by
  have hread (h : Text.CodePage.western.Has t.toList) :
      Text.Encoding.windows1252.reread t = String.ofList (reread1252 t.toList) :=
    congrArg String.ofList (Text.decode_encode_western h)
  refine ⟨hread, fun h => ?_⟩
  rw [hread h, ← Text.reread1252_eq_self_iff h, ← String.toList_inj, String.toList_ofList]

/-- A name in upper case is read back exactly if the name does not start like a byte order mark. -/
theorem reread_upperName_iff {name : String} (h : Text.CodePage.western.Has name.toList) :
    Text.Encoding.windows1252.reread (Text.upperName name) = Text.upperName name ↔
      ¬ Marked name.toList := by
  have hupper : (Text.upperName name).toList = Text.foldName name := String.toList_ofList
  rw [(readsBack_reread _).eq_iff (hupper ▸ h.foldName), hupper, Text.marked_foldName]

/-- No line ends in what is written of a text in which none ends. -/
theorem notMem_encode_of_notMem {t : String} (h : '\n' ∉ t.toList) :
    0x0A ∉ Text.Encoding.windows1252.encode t.toList :=
  Text.CodePage.notMem_encode h

/-- A symbol with texts as its initial value is loaded with texts. -/
theorem loadedData_strings {s : Symbol} (hs : s.WellFormed) {texts : List String}
    (hd : s.data = .strings texts) : s.loadedData = .strings texts := by
  rw [Symbol.loadedData, if_neg, hd]
  rintro ⟨ht, -, hm⟩
  have hstores := hs.stores hm
  rw [ht] at hstores
  generalize hp : s.payload = payload at hstores
  cases hstores
  cases hd.symm.trans (congrArg (·.data) hp)

/-- The constant that a declaration adds. -/
theorem getElem?_stringConst (before after : List Declaration) (name text : String) :
    ∃ s, (assemble (before ++ .stringConst name text :: after)).symbols[
        (assemble before).symbols.size]? = some s ∧
      s.name = Text.upperName name ∧ s.data = .strings [text] := by
  have hlater := Draft.Extends.assemble (before ++ [.stringConst name text]) after
  rw [List.append_assoc] at hlater
  have hadded : (assemble (before ++ [.stringConst name text])).symbols[
      (assemble before).symbols.size]? = some { Symbol.blank name 0 .string none with
        name := Text.upperName name
        index := (assemble before).nextIndex
        flags := .const
        data := .strings [text] } := by
    rw [assemble, List.foldl_append]
    exact Array.getElem?_push_size
  exact ⟨_, hlater.getElem? hadded, rfl, rfl⟩

/-- Take any declarations with at most 4095 elements, members and parameters each, in whose texts no
line ends, and assemble and load them on the Western page. Every symbol is loaded with what is read
of its name and of its texts, and these are the same if the page has all their characters, unless
they start like a byte order mark. In particular this holds of each constant that is declared, for
its text and for its name in upper case. -/
theorem readsBack_of_load {decls : List Declaration}
    (hc : ∀ decl ∈ decls, ∀ n ∈ decl.counts, n ≤ 4095)
    (hlines : ∀ s ∈ (assemble decls).symbols, ∀ t ∈ s.texts, '\n' ∉ t.toList)
    (hsymbols : (assemble decls).symbols.size < UInt32.size)
    (hcode : (assemble decls).code.size < UInt32.size) :
    ∃ p, Script.load .windows1252 ((assemble decls).bytes .windows1252) = .ok p ∧
      (∀ (i : Nat) s, (assemble decls).symbols[i]? = some s → ∃ s', p.symbols[i]? = some s' ∧
        ReadsBack s.name s'.name ∧
        ∀ texts, s.data = .strings texts → ∃ texts', s'.data = .strings texts' ∧
          List.Forall₂ ReadsBack texts texts') ∧
      ∀ before name text after, decls = before ++ .stringConst name text :: after →
        ∃ s' text', p.symbols[(assemble before).symbols.size]? = some s' ∧
          s'.data = .strings [text'] ∧ ReadsBack text text' ∧
          (Text.CodePage.western.Has name.toList →
            (s'.name = Text.upperName name ↔ ¬ Marked name.toList)) := by
  have hwell := wellFormed_assemble hc
  have hsymbol {i : Nat} {s : Symbol} (hs : (assemble decls).symbols[i]? = some s) :
      (Script.ofParts Draft.version
        ((assemble decls).symbols.toList.map (Symbol.reread .windows1252))
        (assemble decls).code).symbols[i]? = some (s.reread .windows1252) := by
    rw [← Array.getElem?_toList] at hs
    have hi : i < ((assemble decls).symbols.toList.map (Symbol.reread .windows1252)).length := by
      rw [List.length_map]
      exact (List.getElem?_eq_some_iff.1 hs).1
    rw [Script.ofParts, List.getElem?_toArray, List.getElem?_append_left hi, List.getElem?_map, hs]
    rfl
  have hdata {i : Nat} {s : Symbol} (hs : (assemble decls).symbols[i]? = some s)
      {texts : List String} (hd : s.data = .strings texts) :
      (s.reread .windows1252).data =
        .strings (texts.map Text.Encoding.windows1252.reread) := by
    rw [Symbol.reread, loadedData_strings (hwell.symbols s (Array.mem_of_getElem? hs)) hd]
    rfl
  refine ⟨_, hwell.load_rereads (fun s hs t ht => notMem_encode_of_notMem (hlines s hs t ht))
    hsymbols hcode, fun i s hs => ?_, fun before name text after he => ?_⟩
  · refine ⟨_, hsymbol hs, readsBack_reread s.name, fun texts hd => ⟨_, hdata hs hd, ?_⟩⟩
    exact List.forall₂_map_right_iff.2 (List.forall₂_same.2 fun t _ => readsBack_reread t)
  · subst he
    obtain ⟨s, hs, hname, hd⟩ := getElem?_stringConst before after name text
    refine ⟨_, _, hsymbol hs, hdata hs hd, readsBack_reread text, fun hhas => ?_⟩
    show Text.Encoding.windows1252.reread s.name = _ ↔ _
    rw [hname]
    exact reread_upperName_iff hhas

/-- Two constants, the text of the first of which starts like a byte order mark. -/
def umlauts : List Declaration := [
  .stringConst "S" "\u00FF\u00FE", .stringConst "gr\u00FC\u00DF" "\u00C4"]

/-- The one with the mark is lost, and the other one is read back under its name in upper case. -/
theorem readsBack_of_load_umlauts :
    ∃ p s s' text, Script.load .windows1252 ((assemble umlauts).bytes .windows1252) = .ok p ∧
      p.symbols[0]? = some s ∧ s.data = .strings [text] ∧ text ≠ "\u00FF\u00FE" ∧
      p.symbols[1]? = some s' ∧ s'.data = .strings ["\u00C4"] ∧ s'.name = "GR\u00FC\u00DF" := by
  have hcounts : ∀ decl ∈ umlauts, ∀ n ∈ decl.counts, n ≤ 4095 := by decide
  obtain ⟨p, hload, -, hconst⟩ := readsBack_of_load hcounts (by decide +kernel)
    (by decide +kernel) (by decide +kernel)
  obtain ⟨s, text, hs, hd, htext, -⟩ := hconst [] _ _ _ rfl
  obtain ⟨s', text', hs', hd', htext', hname'⟩ := hconst [.stringConst "S" "\u00FF\u00FE"] _ _ _ rfl
  have hmarked : text ≠ "\u00FF\u00FE" :=
    fun he => (htext.eq_iff (by decide)).1 he (by decide)
  obtain rfl : text' = "\u00C4" := (htext'.eq_iff (by decide)).2 (by decide)
  refine ⟨p, s, s', text, hload, hs, hd, hmarked, hs', hd', ?_⟩
  rw [(hname' (by decide)).2 (by decide)]
  decide

/-- A text on the Western page without a line feed that is loaded as another one. -/
theorem not_readsBack :
    Text.CodePage.western.Has "\u00FF\u00FE".toList ∧ '\n' ∉ "\u00FF\u00FE".toList ∧
    ∃ p s, Script.load .windows1252
        ((assemble [.stringConst "S" "\u00FF\u00FE"]).bytes .windows1252) = .ok p ∧
      p.symbols[0]? = some s ∧ s.data = .strings [""] := by
  refine ⟨by decide, by decide, ?_⟩
  have hloaded : (Script.load .windows1252
      ((assemble [.stringConst "S" "\u00FF\u00FE"]).bytes .windows1252)).toOption.bind
        (fun p => (p.symbols[0]?).map (·.data)) = some (.strings [""]) := by
    decide +kernel
  obtain ⟨p, hp, hs⟩ := Option.bind_eq_some_iff.1 hloaded
  obtain ⟨s, hs, hd⟩ := Option.map_eq_some_iff.1 hs
  refine ⟨p, s, ?_, hs, hd⟩
  revert hp
  cases Script.load .windows1252
      ((assemble [.stringConst "S" "\u00FF\u00FE"]).bytes .windows1252) with
  | error e => exact nofun
  | ok q => exact fun hp => congrArg Except.ok (Option.some.inj hp)

end ScriptMachine.Assembler
