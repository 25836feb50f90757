import ScriptMachine.Proofs.Decoding
import ScriptMachine.Proofs.Extension

/-!
# Bodies as they are emitted

A body emits one instruction after another. A jump is emitted before its label need be bound, with
zero in the place of its target, and finishing the body puts the address there that the label was
bound to at last. What is decoded from a finished body are these instructions.

* `OpenBody.emitted`, `OpenBody.pending` – the instructions of items, and the jumps they leave open.
* `OpenBody.lastBound` – the address that a label is bound to at last.
* `OpenBody.code_finish` – the code of a body that is finished.
* `Draft.Opens` – the bodies that declarations add to a draft.
* `decodeRange_of_opens` – what is decoded from such a body.
-/

namespace ScriptMachine.Assembler

/-! ## What a body emits -/

/-- Whether an item emits nothing but an instruction with the operand that its opcode asks for. -/
def BodyItem.Regular : BodyItem → Prop
  | .emit opcode operand => operand.shape = opcode.shape
  | .raw _ | .finish => False
  | _ => True

namespace OpenBody

variable (o : OpenBody)

/-- The instruction that an item emits, if labels stand for some addresses. -/
def emits (target : Nat → UInt32) : BodyItem → Option (Opcode × Operand)
  | .emit opcode operand => some (opcode, operand)
  | .pushText _ => some (.pushv, .symbol o.draft.nextIndex)
  | .branch symbol => some (.bl, .address (o.draft.targetOf symbol))
  | .call symbol =>
    if (o.draft.symbolAt? symbol).any (·.isExternal) then some (.be, .symbol symbol)
    else some (.bl, .address (o.draft.targetOf symbol))
  | .jump label => some (.b, .address (target label))
  | .jumpIfZero label => some (.bz, .address (target label))
  | .newLabel | .bind _ | .raw _ | .finish => none

/-- The jump that an item leaves to be filled. -/
def awaits : BodyItem → List (Nat × Nat)
  | .jump label | .jumpIfZero label => [(o.draft.code.size + 1, label)]
  | _ => []

/-- The instructions that items emit one after the other. -/
def emitted (target : Nat → UInt32) : OpenBody → List BodyItem → List (Opcode × Operand)
  | _, [] => []
  | o, item :: items => (o.emits target item).toList ++ emitted target (o.step item) items

/-- The jumps that items leave to be filled. -/
def pending : OpenBody → List BodyItem → List (Nat × Nat)
  | _, [] => []
  | o, item :: items => o.awaits item ++ pending (o.step item) items

/-- The address that an item binds a label to. Only labels that were introduced can be bound. -/
def binds (label : Nat) : BodyItem → Option UInt32
  | .bind l => if l = label ∧ l < o.labels.size then some o.draft.here else none
  | _ => none

/-- The address that items bind a label to at last. -/
def lastBound (label : Nat) : OpenBody → List BodyItem → Option UInt32
  | _, [] => none
  | o, item :: items => (lastBound label (o.step item) items).or (o.binds label item)

variable {o} {item : BodyItem}

theorem code_emit (o : OpenBody) (opcode : Opcode) (operand : Operand) :
    (o.emit opcode operand).draft.code.toList =
      o.draft.code.toList ++ Instruction.bytes [(opcode, operand)] := by
  simp [emit, Draft.emit, Draft.addCode, Instruction.bytes, Instruction.encode]

/-- An item emits its instruction, where a jump does not lead anywhere yet. -/
theorem code_step (h : item.Regular) : (o.step item).draft.code.toList =
    o.draft.code.toList ++ Instruction.bytes (o.emits (fun _ => 0) item).toList := by
  cases item with
  | emit opcode operand => exact o.code_emit opcode operand
  | pushText text => exact code_emit { o with draft := o.draft.addLiteral text } _ _
  | branch symbol => exact o.code_emit _ _
  | call symbol =>
    rw [step, emits]
    split <;> exact o.code_emit _ _
  | newLabel | bind => exact (List.append_nil _).symm
  | jump label | jumpIfZero label => exact code_emit { o with fixups := _ } _ _
  | raw | finish => exact h.elim

theorem fixups_step (h : item.Regular) : (o.step item).fixups = o.fixups ++ o.awaits item := by
  cases item with
  | jump | jumpIfZero => rfl
  | call symbol =>
    have hnone : o.awaits (.call symbol) = [] := rfl
    rw [step, hnone, List.append_nil]
    split <;> rfl
  | raw | finish => exact h.elim
  | emit | pushText | branch | newLabel | bind => exact (List.append_nil _).symm

theorem finished_step (h : item.Regular) : (o.step item).finished = o.finished := by
  cases item with
  | call symbol =>
    rw [step]
    split <;> rfl
  | raw | finish => exact h.elim
  | emit | pushText | branch | newLabel | bind | jump | jumpIfZero => rfl

variable {items : List BodyItem}

theorem code_steps (h : ∀ item ∈ items, item.Regular) :
    (items.foldl step o).draft.code.toList =
      o.draft.code.toList ++ Instruction.bytes (emitted (fun _ => 0) o items) := by
  induction items generalizing o with
  | nil => exact (List.append_nil _).symm
  | cons item items ih =>
    obtain ⟨hitem, hitems⟩ := List.forall_mem_cons.1 h
    rw [List.foldl_cons, ih hitems, code_step hitem, emitted, Instruction.bytes_append,
      List.append_assoc]

theorem fixups_steps (h : ∀ item ∈ items, item.Regular) :
    (items.foldl step o).fixups = o.fixups ++ pending o items := by
  induction items generalizing o with
  | nil => exact (List.append_nil _).symm
  | cons item items ih =>
    obtain ⟨hitem, hitems⟩ := List.forall_mem_cons.1 h
    rw [List.foldl_cons, ih hitems, fixups_step hitem, pending, List.append_assoc]

theorem finished_steps (h : ∀ item ∈ items, item.Regular) :
    (items.foldl step o).finished = o.finished := by
  induction items generalizing o with
  | nil => rfl
  | cons item items ih =>
    obtain ⟨hitem, hitems⟩ := List.forall_mem_cons.1 h
    rw [List.foldl_cons, ih hitems, finished_step hitem]

/-! ## Filling the jumps -/

/-- An instruction takes the same bytes wherever its label stands. -/
theorem length_emits (target target' : Nat → UInt32) (item : BodyItem) :
    (Instruction.bytes (o.emits target item).toList).length =
      (Instruction.bytes (o.emits target' item).toList).length := by
  cases item <;> rfl

theorem code_fill_jump {opcode : Opcode} {d : Draft} {A B : List UInt8} {n : Nat}
    (hn : n = A.length + 1)
    (hd : d.code.toList = A ++ (Instruction.bytes [(opcode, .address 0)] ++ B)) (w : UInt32) :
    (d.patch n w).code.toList = A ++ (Instruction.bytes [(opcode, .address w)] ++ B) := by
  have hsplit (w : UInt32) : A ++ (Instruction.bytes [(opcode, .address w)] ++ B) =
      (A ++ [opcode.toByte]) ++ (LittleEndian.encode w ++ B) := by
    simp [Instruction.bytes, Operand.encode]
  rw [hsplit] at hd ⊢
  obtain rfl : n = (A ++ [opcode.toByte]).length := by simpa using hn
  exact Draft.toList_code_patch_of_eq hd w

/-- Filling the jump of an item turns the instruction that was emitted into one that leads to where
the label stands. -/
theorem code_fill_step (h : item.Regular) (target : Nat → UInt32) {d : Draft} {A B : List UInt8}
    (hA : A.length = o.draft.code.size)
    (hd : d.code.toList = A ++ (Instruction.bytes (o.emits (fun _ => 0) item).toList ++ B)) :
    ((o.awaits item).foldl (fun d f => d.patch f.1 (target f.2)) d).code.toList =
      A ++ (Instruction.bytes (o.emits target item).toList ++ B) := by
  cases item with
  | jump label | jumpIfZero label => exact code_fill_jump (by rw [hA]) hd (target label)
  | raw | finish => exact h.elim
  | emit | pushText | branch | call | newLabel | bind => exact hd

/-- Filling the jumps of items one after the other: those before are filled, those behind are not
yet. -/
theorem code_fill (h : ∀ item ∈ items, item.Regular) (target : Nat → UInt32) {d : Draft}
    {A B : List UInt8} (hA : A.length = o.draft.code.size)
    (hd : d.code.toList = A ++ (Instruction.bytes (emitted (fun _ => 0) o items) ++ B)) :
    ((pending o items).foldl (fun d f => d.patch f.1 (target f.2)) d).code.toList =
      A ++ (Instruction.bytes (emitted target o items) ++ B) := by
  induction items generalizing o d A with
  | nil => exact hd
  | cons item items ih =>
    obtain ⟨hitem, hitems⟩ := List.forall_mem_cons.1 h
    rw [emitted, Instruction.bytes_append, List.append_assoc] at hd
    have hfirst := code_fill_step hitem target hA hd
    have hsize : (A ++ Instruction.bytes (o.emits target item).toList).length =
        (o.step item).draft.code.size := by
      have hlength := congrArg List.length (code_step (o := o) hitem)
      rw [List.length_append, Array.length_toList, Array.length_toList] at hlength
      rw [List.length_append, hA, hlength, length_emits target]
    -- the instruction is complete now, and belongs to the code before the items that are left
    rw [← List.append_assoc] at hfirst
    rw [pending, List.foldl_append, ih hitems hsize hfirst, emitted, Instruction.bytes_append]
    simp only [List.append_assoc]

/-- What a body has emitted once it is finished. -/
theorem code_finish (h : ∀ item ∈ items, item.Regular) (hfixups : o.fixups = [])
    (hfinished : o.finished = false) :
    (items.foldl step o).finish.draft.code.toList = o.draft.code.toList ++
      Instruction.bytes (emitted (items.foldl step o).addressOf o items ++ [(.rsr, .none)]) := by
  have hopen : (items.foldl step o).finished = false := (finished_steps h).trans hfinished
  have hcode : ((items.foldl step o).emit .rsr .none).draft.code.toList = o.draft.code.toList ++
      (Instruction.bytes (emitted (fun _ => 0) o items) ++ Instruction.bytes [(.rsr, .none)]) := by
    rw [code_emit, code_steps h, List.append_assoc]
  have hfill := code_fill h (items.foldl step o).addressOf Array.length_toList hcode
  rw [finish, if_neg (by simp [hopen]), Instruction.bytes_append, ← hfill, fixups_steps h, hfixups]
  rfl

/-! ## Labels -/

theorem addressOf_step (h : item.Regular) (label : Nat) :
    (o.step item).addressOf label = (o.binds label item).getD (o.addressOf label) := by
  cases item with
  | newLabel =>
    -- a label that is introduced is not bound yet, as if there were none
    have hpush : (o.labels.push none)[label]? =
        if label = o.labels.size then some none else o.labels[label]? := Array.getElem?_push
    have hnone : o.binds label .newLabel = none := rfl
    rw [step, addressOf, hpush, hnone, Option.getD_none, addressOf]
    by_cases hlabel : label = o.labels.size
    · rw [if_pos hlabel, Array.getElem?_eq_none (Nat.le_of_eq hlabel.symm)]
    · rw [if_neg hlabel]
  | bind l =>
    rw [step, addressOf, binds, Array.getElem?_setIfInBounds]
    by_cases hl : l = label
    · by_cases hlt : l < o.labels.size
      · simp [hl, hl ▸ hlt]
      · simp [hl, hl ▸ hlt, addressOf]
    · simp [hl, addressOf]
  | call symbol =>
    rw [step]
    split <;> rfl
  | raw | finish => exact h.elim
  | emit | pushText | branch | jump | jumpIfZero => rfl

/-- A label stands for the address that it was bound to at last. -/
theorem addressOf_steps (h : ∀ item ∈ items, item.Regular) (label : Nat) :
    (items.foldl step o).addressOf label = (lastBound label o items).getD (o.addressOf label) := by
  induction items generalizing o with
  | nil => rfl
  | cons item items ih =>
    obtain ⟨hitem, hitems⟩ := List.forall_mem_cons.1 h
    rw [List.foldl_cons, ih hitems, lastBound, addressOf_step hitem, Option.getD_or]

/-- The instructions of regular items have the operands that their opcodes ask for. -/
theorem shape_emitted (h : ∀ item ∈ items, item.Regular) (target : Nat → UInt32) :
    ∀ i ∈ emitted target o items, i.2.shape = i.1.shape := by
  induction items generalizing o with
  | nil => nofun
  | cons item items ih =>
    obtain ⟨hitem, hitems⟩ := List.forall_mem_cons.1 h
    refine List.forall_mem_append.2 ⟨fun i hi => ?_, ih hitems⟩
    rw [Option.mem_toList] at hi
    cases item with
    | emit opcode operand =>
      obtain rfl := Option.some.inj hi
      exact hitem
    | call symbol =>
      rw [emits] at hi
      split at hi <;> exact Option.some.inj hi ▸ rfl
    | pushText | branch | jump | jumpIfZero => exact Option.some.inj hi ▸ rfl
    | newLabel | bind => cases hi
    | raw | finish => exact hitem.elim

end OpenBody

/-! ## Bodies of declarations -/

/-- The bodies that declarations add to a draft: the draft with the symbols of the declaration, the
items a body begins with, and those that are declared. -/
inductive Draft.Opens (d : Draft) : Declaration → Draft → List BodyItem → List BodyItem → Prop where
  | function (name : String) (params : List DataType) (result : Option DataType)
      (body : List BodyItem) :
      d.Opens (.function name params result body)
        ((d.add (functionSymbol name params result d.here)).addAll (parameterSymbols name params))
        (prologue params (d.nextIndex + 1)) body
  | proto (name : String) (parent : UInt32) (body : List BodyItem) :
      d.Opens (.proto name parent body)
        (d.add { Symbol.blank name 0 .proto (some parent) with
          flags := .const, count := 0, address := d.here }) [] body
  | inst (name : String) (parent : UInt32) (body : List BodyItem) :
      d.Opens (.inst name parent body)
        (d.add { Symbol.blank name 0 .inst (some parent) with
          flags := .const, count := 0, address := d.here })
        (inheritance (d.add { Symbol.blank name 0 .inst (some parent) with
          flags := .const, count := 0, address := d.here }) parent) body

namespace Draft

theorem code_addAll (d : Draft) (symbols : List Symbol) : (d.addAll symbols).code = d.code := by
  induction symbols generalizing d with
  | nil => rfl
  | cons s symbols ih => exact ih (d.add s)

namespace Opens

variable {d d' : Draft} {decl : Declaration} {opening body : List BodyItem}

theorem declare_eq (h : d.Opens decl d' opening body) :
    d.declare decl = d'.addBody (opening ++ body) := by
  cases h <;> rfl

theorem code_eq (h : d.Opens decl d' opening body) : d'.code = d.code := by
  cases h with
  | function name params result => exact code_addAll (d.add _) _
  | proto | inst => rfl

/-- The symbol of a declaration has the address at which its body begins. -/
theorem symbol (h : d.Opens decl d' opening body) :
    ∃ s, d'.symbols[d.symbols.size]? = some s ∧ s.address = d.here := by
  cases h with
  | function name params result =>
    exact ⟨_, (Extends.addAll (d.add _) _).getElem? Array.getElem?_push_size, rfl⟩
  | proto | inst => exact ⟨_, Array.getElem?_push_size, rfl⟩

/-- What a body begins with are instructions. -/
theorem regular_opening (h : d.Opens decl d' opening body) : ∀ item ∈ opening, item.Regular := by
  cases h with
  | function name params result =>
    refine List.forall_mem_flatMap.2 fun ⟨type, i⟩ _ => ?_
    refine List.forall_mem_cons.2 ⟨rfl, List.forall_mem_singleton.2 ?_⟩
    cases type <;> rfl
  | proto => nofun
  | inst name parent =>
    rw [inheritance]
    split
    · split
      · exact List.forall_mem_singleton.2 rfl
      · nofun
    · nofun

end Opens

end Draft

/-! ## What is decoded -/

/-- Finishing again and again has no effect. -/
theorem OpenBody.steps_of_finished {o : OpenBody} (ho : o.finished = true) {again : List BodyItem}
    (h : ∀ item ∈ again, item = .finish) : again.foldl step o = o := by
  induction again with
  | nil => rfl
  | cons item again ih =>
    obtain ⟨rfl, hagain⟩ := List.forall_mem_cons.1 h
    rw [List.foldl_cons, step, finish_of_finished ho, ih hagain]

/-- The instructions of a finished body: those of its items, where each label stands for the address
that it was bound to at last, and a return. -/
def Draft.bodyInstructions (d : Draft) (items : List BodyItem) : List (Opcode × Operand) :=
  OpenBody.emitted (fun label => (OpenBody.lastBound label d.openBody items).getD 0xFFFFFFFF)
    d.openBody items ++ [(.rsr, .none)]

theorem Draft.shape_bodyInstructions {items : List BodyItem}
    (h : ∀ item ∈ items, item.Regular) (d : Draft) :
    ∀ i ∈ d.bodyInstructions items, i.2.shape = i.1.shape :=
  List.forall_mem_append.2 ⟨OpenBody.shape_emitted h _, List.forall_mem_singleton.2 rfl⟩

/-- The code of a body that is finished, behind the code before it. -/
theorem Draft.code_addBody {d : Draft} {items again : List BodyItem}
    (h : ∀ item ∈ items, item.Regular) (hagain : ∀ item ∈ again, item = .finish) :
    (d.addBody (items ++ .finish :: again)).code.toList =
      d.code.toList ++ Instruction.bytes (d.bodyInstructions items) := by
  have htarget : (items.foldl OpenBody.step d.openBody).addressOf =
      fun label => (OpenBody.lastBound label d.openBody items).getD 0xFFFFFFFF := by
    funext label
    exact OpenBody.addressOf_steps h label
  rw [addBody, List.foldl_append, List.foldl_cons, OpenBody.step,
    OpenBody.steps_of_finished (OpenBody.finished_finish _) hagain,
    OpenBody.code_finish h rfl rfl, htarget]
  rfl

/-- What follows the code of a draft stands where the draft ends. -/
theorem Draft.at_here {code : Code} (hsize : code.size < UInt32.size) {d : Draft} {t : List UInt8}
    (h : d.code.toList ++ t <+: code.toList) : code.At d.here t := by
  have hlength := h.length_le
  simp only [List.length_append, Array.length_toList] at hlength
  have hhere : d.here.toNat = d.code.size :=
    UInt32.toNat_ofNat_of_lt' (Nat.lt_of_le_of_lt (by omega) hsize)
  obtain ⟨rest, hrest⟩ := h
  refine ⟨rest, ?_⟩
  rw [← hrest, hhere, ← Array.length_toList, List.append_assoc, List.drop_left]

/-- Instructions whose bytes stand behind other code are decoded from there on. -/
theorem decodeRange_of_prefix {p : Script} (hsize : p.code.size < UInt32.size) {d d' : Draft}
    {l : List (Opcode × Operand)} (hl : ∀ i ∈ l, i.2.shape = i.1.shape)
    (hd' : d'.code.toList = d.code.toList ++ Instruction.bytes l)
    (hp : d'.code.toList <+: p.code.toList) :
    p.decodeRange d.here d'.here = .ok (Instruction.place d.here l) := by
  have hlength : d'.code.size = d.code.size + (Instruction.bytes l).length := by
    rw [← Array.length_toList, hd', List.length_append, Array.length_toList]
  have hstop : d'.here = d.here + UInt32.ofNat (Instruction.bytes l).length := by
    rw [Draft.here, hlength, UInt32.ofNat_add, Draft.here]
  have hline := (Draft.at_here hsize (hd' ▸ hp)).lined hsize hl
  rw [← hstop] at hline
  refine (Script.decodeRange_eq_ok hsize).2 ⟨_, hline, UInt32.le_refl _, fun i hi => ?_⟩
  obtain ⟨-, hlt, hnext, -⟩ := hline.of_mem hsize hi
  exact UInt32.lt_of_lt_of_le hlt hnext

/-- Take any declarations that are assembled and loaded with the same code, and among them a
function, a prototype or an instance whose body is declared without raw bytes, with operands that
suit the opcodes, and is finished, once or more often. From the address of its symbol up to where
the body ends, what is decoded is: the prologue, the instructions of the items in order, where each
jump leads to the address its label was last bound to, or to `0xFFFFFFFF`, and a return. To finish a
body, whatever was emitted, changes no byte of the code before the body, and to finish it again
changes nothing. -/
theorem decodeRange_of_opens {enc : Text.Encoding} {p : Script} {pre post : List Declaration}
    {decl : Declaration} {d : Draft} {opening calls again : List BodyItem}
    (hload : Script.load enc ((assemble (pre ++ decl :: post)).bytes enc) = .ok p)
    (hcode : p.code = (assemble (pre ++ decl :: post)).code)
    (hbody : (assemble pre).Opens decl d opening (calls ++ .finish :: again))
    (hcalls : ∀ item ∈ calls, item.Regular) (hagain : ∀ item ∈ again, item = .finish) :
    (∃ s, (assemble (pre ++ decl :: post)).symbols[(assemble pre).symbols.size]? = some s ∧
      p.decodeRange s.address (assemble (pre ++ [decl])).here =
        .ok (Instruction.place s.address (d.bodyInstructions (opening ++ calls)))) ∧
    ∀ (e : Draft) (items : List BodyItem), let o := items.foldl OpenBody.step e.openBody
      (∀ i < e.code.size, o.finish.draft.code[i]? = o.draft.code[i]?) ∧
        o.finish.finish = o.finish := by
  have hitems := List.forall_mem_append.2 ⟨hbody.regular_opening, hcalls⟩
  have hdeclare : assemble (pre ++ [decl]) = (assemble pre).declare decl := by
    rw [assemble, List.foldl_append]
    rfl
  -- what is declared later neither moves nor overwrites the body
  have hlater : (assemble (pre ++ decl :: post)).Extends (assemble (pre ++ [decl])) := by
    have h := Draft.Extends.assemble (pre ++ [decl]) post
    rwa [List.append_assoc] at h
  have hbytes : (assemble (pre ++ [decl])).code.toList = (assemble pre).code.toList ++
      Instruction.bytes (d.bodyInstructions (opening ++ calls)) := by
    rw [hdeclare, hbody.declare_eq, ← List.append_assoc, Draft.code_addBody hitems hagain,
      hbody.code_eq]
  constructor
  · obtain ⟨s, hs, ha⟩ := hbody.symbol
    have hopened : (assemble (pre ++ [decl])).Extends d := by
      rw [hdeclare, hbody.declare_eq]
      exact .addBody d _
    refine ⟨s, (hopened.trans hlater).getElem? hs, ?_⟩
    rw [ha]
    exact decodeRange_of_prefix (Script.size_code_of_load hload)
      (Draft.shape_bodyInstructions hitems d) hbytes (hcode ▸ hlater.code)
  · intro e items o
    refine ⟨fun i hi => ?_, o.finish_finish⟩
    -- the code of the draft is in front of the body both before and after
    have hguards := (OpenBody.guards_openBody e).steps items
    obtain ⟨rest, hrest⟩ := hguards.code
    obtain ⟨rest', hrest'⟩ := hguards.finish.code
    rw [← Array.length_toList] at hi
    rw [← Array.getElem?_toList, ← Array.getElem?_toList, ← hrest, ← hrest',
      List.getElem?_append_left hi, List.getElem?_append_left hi]

/-- Items with a jump ahead, and a jump to a label that is bound twice. -/
def loop : List BodyItem :=
  [.newLabel, .newLabel, .bind 0, .pushVar 1, .jumpIfZero 1, .bind 0, .jump 0, .bind 1]

/-- A function of a number with these items. -/
def looping : Declaration :=
  .function "Loop" [.int] none (loop ++ [.finish, .finish])

theorem decodeRange_of_looping :
    ∃ p, Script.load .windows1252 ((assemble [looping]).bytes .windows1252) = .ok p ∧
      p.decodeRange 0 22 = .ok [⟨0, .pushv, .symbol 1⟩, ⟨5, .movi, .none⟩, ⟨6, .pushv, .symbol 1⟩,
        ⟨11, .bz, .address 21⟩, ⟨16, .b, .address 16⟩, ⟨21, .rsr, .none⟩] := by
  have hwell : (assemble ([] ++ looping :: [])).WellFormed := wellFormed_assemble (by decide)
  have hp : ∀ s ∈ (assemble [looping]).symbols, s.parent.all (· < 0x80000000) = true := by
    decide +kernel
  have ht : ∀ s ∈ (assemble [looping]).symbols, ∀ t ∈ s.texts,
      Text.Encoding.windows1252.Carries t := by decide +kernel
  have hload := hwell.load_bytes
    (fun s hs i hi => of_decide_eq_true ((Option.all_eq_true _ _).1 (hp s hs) i hi)) ht
    (by decide +kernel) (by decide +kernel)
  have hcalls : ∀ item ∈ loop, item.Regular := by
    simp only [loop, List.forall_mem_cons]
    exact ⟨.intro, .intro, .intro, rfl, .intro, .intro, .intro, .intro, nofun⟩
  obtain ⟨⟨s, hs, hdecode⟩, -⟩ := decodeRange_of_opens hload rfl (.function ..) hcalls
    (List.forall_mem_singleton.2 rfl)
  have haddress : s.address = 0 := by
    have h : ((assemble ([] ++ looping :: [])).symbols[(assemble []).symbols.size]?).map
        (·.address) = some 0 := by decide +kernel
    rw [hs] at h
    exact Option.some.inj h
  have hstop : (assemble ([] ++ [looping])).here = 22 := by decide +kernel
  refine ⟨_, hload, ?_⟩
  rw [haddress, hstop] at hdecode
  refine hdecode.trans (congrArg Except.ok ?_)
  decide +kernel

end ScriptMachine.Assembler
