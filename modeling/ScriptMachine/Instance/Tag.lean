import ScriptMachine.Enumeration
import ScriptMachine.Text.Name

/-!
# Instance tags

The engine knows a closed set of instance layouts. The tag an instance is allocated under names the
class it must derive from and decides which fields the host may ask for.
-/

namespace ScriptMachine

/-- The instance layouts the engine knows about. -/
inductive InstanceTag where
  | guildValues | npc | mission | item | focus | info | itemReact | spell | svm | menu | menuItem
  | camera | musicSystem | musicTheme | musicJingle | particleEffect | effectBase
  | particleEffectEmitKey | fightAi | soundEffect | soundSystem
  /-- Any class at all; such instances have no named fields of their own. -/
  | unknown
  deriving DecidableEq

namespace InstanceTag

/-- All tags. -/
def all : List InstanceTag := [
  guildValues, npc, mission, item, focus, info, itemReact, spell, svm, menu, menuItem, camera,
  musicSystem, musicTheme, musicJingle, particleEffect, effectBase, particleEffectEmitKey, fightAi,
  soundEffect, soundSystem, unknown]

/-- The name a tag is reported under. -/
def name : InstanceTag → String
  | guildValues => "GUILD_VALUES"
  | npc => "NPC"
  | mission => "MISSION"
  | item => "ITEM"
  | focus => "FOCUS"
  | info => "INFO"
  | itemReact => "ITEM_REACT"
  | spell => "SPELL"
  | svm => "SVM"
  | menu => "MENU"
  | menuItem => "MENU_ITEM"
  | camera => "CAMERA"
  | musicSystem => "MUSIC_SYSTEM"
  | musicTheme => "MUSIC_THEME"
  | musicJingle => "MUSIC_JINGLE"
  | particleEffect => "PARTICLE_EFFECT"
  | effectBase => "EFFECT_BASE"
  | particleEffectEmitKey => "PARTICLE_EFFECT_EMIT_KEY"
  | fightAi => "FIGHT_AI"
  | soundEffect => "SOUND_EFFECT"
  | soundSystem => "SOUND_SYSTEM"
  | unknown => "UNKNOWN"

/-- The class an instance under a tag must derive from. -/
def className? : InstanceTag → Option String
  | guildValues => some "C_GILVALUES"
  | npc => some "C_NPC"
  | mission => some "C_MISSION"
  | item => some "C_ITEM"
  | focus => some "C_FOCUS"
  | info => some "C_INFO"
  | itemReact => some "C_ITEMREACT"
  | spell => some "C_SPELL"
  | svm => some "C_SVM"
  | menu => some "C_MENU"
  | menuItem => some "C_MENU_ITEM"
  | camera => some "CCAMSYS"
  | musicSystem => some "C_MUSICSYS_CFG"
  | musicTheme => some "C_MUSICTHEME"
  | musicJingle => some "C_MUSICJINGLE"
  | particleEffect => some "C_PARTICLEFX"
  | effectBase => some "CFX_BASE"
  | particleEffectEmitKey => some "C_PARTICLEFXEMITKEY"
  | fightAi => some "C_FIGHTAI"
  | soundEffect => some "C_SFX"
  | soundSystem => some "C_SNDSYS_CFG"
  | unknown => none

/-- Whether an instance of the class `cls` may be allocated under a tag. -/
def acceptsClass (tag : InstanceTag) (cls : String) : Bool :=
  match tag.className? with
  | some expected => Text.sameName expected cls
  | none => true

@[simp] theorem acceptsClass_unknown (cls : String) : unknown.acceptsClass cls = true := rfl

instance : Enumeration InstanceTag where
  members := all
  code tag := (all.idxOf tag : Nat)
  label := name

end InstanceTag

end ScriptMachine
