import ScriptMachine.Proofs.Change

/-!
# What a host may do

Most edits have nothing to do with the instances that exist already. The others place a value in a
machine, or free an instance, and these are the ones that a host may be forbidden. A permission says
which values may be placed and which instances may be freed. Host code that heeds it asks for
nothing else, whatever the answers are.

* `Machine.Plain`, `Machine.Placed` – edits that place no instance, and those that place a value.
* `Machine.Absorbs` – relations that can be chained and hold of plain edits.
* `Permission` – what a host may do.
* `Machine.Governs` – relations that hold of whatever is permitted.
* `Routine.mayBegin`, `Routine.heeds` – whether host code does only what is permitted, at first or
  throughout.
* `Routine.runUnder` – runs of host code that does, and whose callbacks do.
-/

namespace ScriptMachine

variable {σ : Type}

/-! ## Edits by what they place -/

namespace Machine

variable {m m' : Machine σ}

/-- An edit that places no instance anywhere, except for one that it allocates, and frees none. -/
inductive Plain : Machine σ → Machine σ → Prop where
  | push (m : Machine σ) {e : Entry} (he : ∀ x, e ≠ .value (.inst (some x))) :
      Plain m (m.pushEntry e)
  | drop {m : Machine σ} {e : Entry} {rest : List Entry} (h : m.stack = e :: rest) :
      Plain m (m.withStack rest)
  | fail {m : Machine σ} (h : m.poison = none) (e : Error) : Plain m (m.poisonWith e)
  | report (m : Machine σ) {e : LogEvent} (h : e.isExecuted = false) : Plain m (m.report e)
  | write {m : Machine σ} {r : Reference} {v : CellValue} {memory : Memory}
      (hv : ∀ x, v ≠ ⟨.inst, some x⟩)
      (h : m.memory.write m.script m.config.flags r v = .ok memory) : Plain m { m with memory }
  | alloc {m : Machine σ} {key : SymbolKey} {s : Symbol} {tag : InstanceTag} {x : Handle}
      {memory : Memory} (hs : m.script.find key = .ok s)
      (h : m.memory.alloc m.script s tag = .ok (x, memory)) : Plain m { m with memory }
  | markInitialized {m : Machine σ} {x : Handle} {memory : Memory}
      (h : m.memory.markInitialized x = .ok memory) : Plain m { m with memory }
  | registerExternal {m m' : Machine σ} {key : SymbolKey} {x : Binding σ}
      (h : m.registerExternal key x = .ok m') : Plain m m'
  | overrideFunction {m m' : Machine σ} {key : SymbolKey} {x : Binding σ}
      (h : m.overrideFunction key x = .ok m') : Plain m m'
  | registerDefault (m : Machine σ) (callback : Symbol → Routine σ) :
      Plain m (m.registerDefault callback)
  | reportUnregistered (m : Machine σ) (f : Symbol) : Plain m (m.reportUnregistered f)

theorem Plain.edit (h : Plain m m') : Edit m m' := by
  cases h with
  | push _ => exact .push m _
  | drop h => exact .drop h
  | fail h e => exact .fail h e
  | report h => exact .report m h
  | write _ h => exact .write h
  | alloc hs h => exact .alloc hs h
  | markInitialized h => exact .markInitialized h
  | registerExternal h => exact .registerExternal h
  | overrideFunction h => exact .overrideFunction h
  | registerDefault callback => exact .registerDefault m callback
  | reportUnregistered f => exact .reportUnregistered m f

/-- An edit that places a value: on the stack, as the current instance, or in a cell. -/
inductive Placed (m : Machine σ) : Value → Machine σ → Prop where
  | push (v : Value) : Placed m v (m.push v)
  | context (h : Option Handle) : Placed m (.inst h) { m with context := h }
  | setSlot (slot : GlobalSlot) (h : Option Handle) : Placed m (.inst h) (m.setSlot slot h)
  | write {r : Reference} {v : CellValue} {memory : Memory}
      (h : m.memory.write m.script m.config.flags r v = .ok memory) :
      Placed m (v.1.toValue v.2) { m with memory }
  | writeField {v : CellValue} {x : Handle} {member : String} {index : Nat} {memory : Memory}
      (h : m.memory.writeField m.script v x member index = .ok memory) :
      Placed m (v.1.toValue v.2) { m with memory }

theorem Placed.edit {v : Value} (h : Placed m v m') : Edit m m' := by
  cases h with
  | push v => exact .push m _
  | context h => exact .context m h
  | setSlot slot h => exact .setSlot m slot h
  | write h => exact .write h
  | writeField h => exact .writeField h

/-- The machine once an instance is freed, which leaves a memory behind: it is no longer the current
one. -/
def released (m : Machine σ) (x : Handle) (memory : Memory) : Machine σ :=
  { m with memory, context := if m.context = some x then none else m.context }

/-- Whether a relation between machines can be chained and holds of plain edits. -/
class Absorbs (R : Machine σ → Machine σ → Prop) : Prop where
  refl : ∀ m, R m m
  trans : ∀ {a b c}, R a b → R b c → R a c
  plain : ∀ {a b}, Plain a b → R a b

/-- Any number of plain edits. -/
abbrev Plains : Machine σ → Machine σ → Prop := Relation.ReflTransGen Plain

instance : Absorbs (σ := σ) Plains where
  refl _ := .refl
  trans := .trans
  plain := .single

instance : Absorbs (σ := σ) Edits where
  refl _ := .refl
  trans := .trans
  plain h := .single h.edit

theorem Absorbs.plains {R : Machine σ → Machine σ → Prop} [Absorbs R] (h : Plains m m') :
    R m m' := by
  induction h with
  | refl => exact refl m
  | tail _ h ih => exact trans ih (plain h)

end Machine

/-! ## Permissions -/

/-- What a host may do: the values it may place in a machine with a given memory, and the instances
it may free. It may always place an instance that is live. -/
structure Permission (σ : Type) where
  places : Memory → Value → Bool
  frees : Machine σ → Handle → Bool
  places_live : ∀ {memory x y}, memory.instances.get? x = some y →
    places memory (.inst (some x)) = true

/-- The permission of a host that may do anything. -/
def Permission.any : Permission σ := ⟨fun _ _ => true, fun _ _ => true, fun _ => rfl⟩

open Machine

/-- Whether a relation between machines can be chained and holds of whatever is permitted. -/
structure Machine.Governs (P : Permission σ) (R : Machine σ → Machine σ → Prop) : Prop
    extends Absorbs R where
  placed : ∀ {m m' v}, P.places m.memory v = true → Placed m v m' → R m m'
  freed : ∀ {m x memory}, P.frees m x = true → m.memory.free x = .ok memory →
    R m (m.released x memory)

theorem Machine.governs_edits (P : Permission σ) : Governs P Edits where
  refl := Absorbs.refl
  trans := Absorbs.trans
  plain := Absorbs.plain
  placed _ h := .single h.edit
  freed _ h := .single (.free h)

variable (P : Permission σ)

/-- Whether a query is permitted. -/
def Query.permitted (m : Machine σ) : Query → Bool
  | push v => P.places m.memory v
  | free h => P.frees m h
  | setGlobal _ h => P.places m.memory (.inst h)
  | write v _ _ _ | writeField v _ _ _ => P.places m.memory (v.1.toValue v.2)
  | _ => true

/-- Whether what the body of an instance displaces may be put back once the body is done. -/
def RunM.restorable (b : Budget σ) (x : Handle) (w : World σ) : Bool :=
  match w.machine.checkBody x with
  | .error _ => true
  | .ok s =>
    (runFunction b s.index s.address { w with machine := w.machine.beginBody s x }).all fun p =>
      P.places p.2.machine.memory (.inst w.machine.displaced.context) &&
        P.places p.2.machine.memory (.inst w.machine.displaced.self)

namespace Routine

/-- Whether the first request of host code that is run in a world is permitted. -/
def mayBegin (b : Budget σ) : Routine σ → World σ → Bool
  | ask q _, w => q.permitted P w.machine
  | call _ args _ _, w => args.all (P.places w.machine.memory)
  | create key tag _, w =>
    match Machine.alloc key tag w.machine with
    | (.ok x, m) => RunM.restorable P b x { w with machine := m }
    | (.error _, _) => true
  | runBody x _, w => RunM.restorable P b x w
  | _, _ => true

/-- Whether host code that is run in a world does only what is permitted, apart from its
callbacks. -/
def heeds (b : Budget σ) : Routine σ → World σ → Bool
  | finish _, _ => true
  | getHost next, w => heeds b (next w.host) w
  | setHost s next, w => heeds b next { w with host := s }
  | ask q next, w =>
    mayBegin P b (ask q next) w &&
      (q.ends (q.answer w.machine).1 ||
        heeds b (next (q.answer w.machine).1) { w with machine := (q.answer w.machine).2 })
  | call key args expected next, w =>
    mayBegin P b (call key args expected next) w &&
      (RunM.call b key args expected w).all fun p => Error.ends p.1 || heeds b (next p.1) p.2
  | create key tag next, w =>
    mayBegin P b (create key tag next) w &&
      (RunM.create b key tag w).all fun p => Error.ends p.1 || heeds b (next p.1) p.2
  | runBody x next, w =>
    mayBegin P b (runBody x next) w &&
      (RunM.runBody b x w).all fun p => Error.ends p.1 || heeds b (next p.1) p.2
  | registerExternal key params result callback next, w =>
    match registered w.machine (w.machine.registerExternal key ⟨callback, params, result⟩) with
    | (r, m) => heeds b (next r) { w with machine := m }
  | overrideFunction key params result callback next, w =>
    match registered w.machine (w.machine.overrideFunction key ⟨callback, params, result⟩) with
    | (r, m) => heeds b (next r) { w with machine := m }
  | registerDefault callback next, w =>
    heeds b next { w with machine := w.machine.registerDefault callback }

theorem heeds_resume (b : Budget σ) (ends : Bool) (x : Routine σ) (w : World σ) :
    heeds P b (resume ends x) w = (ends || heeds P b x w) := by
  cases ends <;> rfl

/-- What follows the answer to a query does only what is permitted too. -/
theorem heeds_ask (b : Budget σ) (q : Query) (next : q.Reply → Routine σ) (w : World σ) :
    heeds P b (.ask q next) w = (mayBegin P b (.ask q next) w &&
      heeds P b (resume (q.ends (q.answer w.machine).1) (next (q.answer w.machine).1))
        { w with machine := (q.answer w.machine).2 }) := by
  rw [heeds_resume]
  rfl

variable {P} {b : Budget σ} {w v : World σ}

theorem heeds_call {key : SymbolKey} {args : List Value} {expected : Option Kind}
    {r : Except Error Value} (hc : RunM.call b key args expected w = some (r, v))
    (next : Except Error Value → Routine σ) :
    heeds P b (.call key args expected next) w = (mayBegin P b (.call key args expected next) w &&
      heeds P b (resume (Error.ends r) (next r)) v) := by
  rw [heeds, hc, heeds_resume]
  rfl

theorem heeds_create {key : SymbolKey} {tag : InstanceTag} {r : Except Error Handle}
    (hc : RunM.create b key tag w = some (r, v)) (next : Except Error Handle → Routine σ) :
    heeds P b (.create key tag next) w = (mayBegin P b (.create key tag next) w &&
      heeds P b (resume (Error.ends r) (next r)) v) := by
  rw [heeds, hc, heeds_resume]
  rfl

theorem heeds_runBody {x : Handle} {r : Except Error Unit}
    (hc : RunM.runBody b x w = some (r, v)) (next : Except Error Unit → Routine σ) :
    heeds P b (.runBody x next) w = (mayBegin P b (.runBody x next) w &&
      heeds P b (resume (Error.ends r) (next r)) v) := by
  rw [heeds, hc, heeds_resume]
  rfl

end Routine

/-- Runs host code that hands over only what may be placed. -/
def RoutineRunner.handing (c : RoutineRunner σ) : RoutineRunner σ := fun x w =>
  (c x w).filter fun p => p.1.toOption.all (P.places p.2.machine.memory)

/-- Runs a routine as `Routine.runWithin` does, provided that it and its callbacks do only what is
permitted, and that the callbacks hand over only what is. -/
def Routine.runUnder : Nat → RoutineRunner σ
  | 0 => fun _ _ => none
  | n + 1 => fun x w =>
    let b : Budget σ := ⟨(runUnder n).handing P, n⟩
    if heeds P b x w then run b x w else none

/-- The budget of a run in which callbacks nest less than `n` deep and do only what is permitted. -/
def Budget.under (n steps : Nat) : Budget σ := ⟨(Routine.runUnder P n).handing P, steps⟩

end ScriptMachine
