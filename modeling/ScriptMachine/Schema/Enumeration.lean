import ScriptMachine.Enumeration
import ScriptMachine.Flags

/-!
# Enumerations of the engine

The numbers that scripts and engine share: indices into arrays of characters and items, and the
codes and flags that some fields hold.
-/

namespace ScriptMachine

/-- The elements of the attributes of a character. -/
inductive NpcAttribute where
  | hitpoints | hitpointsMax | mana | manaMax | strength | dexterity | regenerateHp
  | regenerateMana
  deriving DecidableEq

instance : Enumeration NpcAttribute where
  members := [
    .hitpoints, .hitpointsMax, .mana, .manaMax, .strength, .dexterity, .regenerateHp,
    .regenerateMana]
  code a := a.ctorIdx
  label
    | .hitpoints => "hitpoints"
    | .hitpointsMax => "hitpoints_max"
    | .mana => "mana"
    | .manaMax => "mana_max"
    | .strength => "strength"
    | .dexterity => "dexterity"
    | .regenerateHp => "regenerate_hp"
    | .regenerateMana => "regenerate_mana"

/-- The elements of damage and protection of characters and items. -/
inductive DamageType where
  | barrier | blunt | edge | fire | fly | magic | point | fall
  deriving DecidableEq

instance : Enumeration DamageType where
  members := [.barrier, .blunt, .edge, .fire, .fly, .magic, .point, .fall]
  code d := d.ctorIdx
  label
    | .barrier => "barrier"
    | .blunt => "blunt"
    | .edge => "edge"
    | .fire => "fire"
    | .fly => "fly"
    | .magic => "magic"
    | .point => "point"
    | .fall => "fall"

/-- The elements of the hit chances of a character. -/
inductive NpcTalent where
  | unknown | oneHanded | twoHanded | bow | crossbow
  deriving DecidableEq

instance : Enumeration NpcTalent where
  members := [.unknown, .oneHanded, .twoHanded, .bow, .crossbow]
  code t := t.ctorIdx
  label
    | .unknown => "unknown"
    | .oneHanded => "one_handed"
    | .twoHanded => "two_handed"
    | .bow => "bow"
    | .crossbow => "crossbow"

/-- How one music segment passes into another. -/
inductive MusicTransitionEffect where
  | unknown | noEffect | groove | fill | break | intro | end | endAndIntro
  deriving DecidableEq

instance : Enumeration MusicTransitionEffect where
  members := [.unknown, .noEffect, .groove, .fill, .break, .intro, .end, .endAndIntro]
  code e := e.ctorIdx
  label
    | .unknown => "unknown"
    | .noEffect => "no_effect"
    | .groove => "groove"
    | .fill => "fill"
    | .break => "break"
    | .intro => "intro"
    | .end => "end"
    | .endAndIntro => "end_and_intro"

/-- What a menu entry is. -/
inductive MenuItemType where
  | unknown | text | slider | input | cursor | choicebox | button | listbox
  deriving DecidableEq

instance : Enumeration MenuItemType where
  members := [.unknown, .text, .slider, .input, .cursor, .choicebox, .button, .listbox]
  code t := t.ctorIdx
  label
    | .unknown => "unknown"
    | .text => "text"
    | .slider => "slider"
    | .input => "input"
    | .cursor => "cursor"
    | .choicebox => "choicebox"
    | .button => "button"
    | .listbox => "listbox"

/-- The moves of a fight. -/
inductive FightAiMove where
  | nop | run | runBack | jumpBack | turn | strafe | attack | attackSide | attackFront
  | attackTriple | attackWhirl | attackMaster | turnToHit | parry | standUp | wait | waitLonger
  | waitExt
  deriving DecidableEq

instance : Enumeration FightAiMove where
  members := [
    .nop, .run, .runBack, .jumpBack, .turn, .strafe, .attack, .attackSide, .attackFront,
    .attackTriple, .attackWhirl, .attackMaster, .turnToHit, .parry, .standUp, .wait, .waitLonger,
    .waitExt]
  code
    | .turnToHit => 15
    | .parry => 17
    | .standUp => 18
    | .wait => 19
    | .waitLonger => 23
    | .waitExt => 24
    | m => m.ctorIdx
  label
    | .nop => "nop"
    | .run => "run"
    | .runBack => "run_back"
    | .jumpBack => "jump_back"
    | .turn => "turn"
    | .strafe => "strafe"
    | .attack => "attack"
    | .attackSide => "attack_side"
    | .attackFront => "attack_front"
    | .attackTriple => "attack_triple"
    | .attackWhirl => "attack_whirl"
    | .attackMaster => "attack_master"
    | .turnToHit => "turn_to_hit"
    | .parry => "parry"
    | .standUp => "stand_up"
    | .wait => "wait"
    | .waitLonger => "wait_longer"
    | .waitExt => "wait_ext"

/-- The flags of a character. -/
def npcFlags : FlagTable := [
  .bit "FRIENDS" 0, .bit "IMMORTAL" 1, .bit "GHOST" 2, .bit "PROTECTED" 3]

/-- The categories and properties of an item. -/
def itemFlags : FlagTable := [
  .bit "RING" 11, .bit "MISSION" 12, .bit "DAG" 13, .bit "SWD" 14, .bit "AXE" 15,
  .bit "TWO_HD_SWD" 16, .bit "TWO_HD_AXE" 17, .bit "SHIELD" 18, .bit "BOW" 19, .bit "CROSSBOW" 20,
  .bit "MULTI" 21, .bit "AMULET" 22, .bit "BELT" 24]

end ScriptMachine
