import ScriptMachine.Schema.Character
import ScriptMachine.Schema.Dialogue
import ScriptMachine.Schema.Item
import ScriptMachine.Schema.Menu
import ScriptMachine.Schema.Player
import ScriptMachine.Schema.Sound
import ScriptMachine.Schema.VisualEffect

/-!
# The schema of each tag
-/

namespace ScriptMachine

/-- The schema of the instances allocated under a tag. -/
def InstanceTag.schema : InstanceTag → Schema
  | guildValues => .guildValues
  | npc => .npc
  | mission => .mission
  | item => .item
  | focus => .focus
  | info => .info
  | itemReact => .itemReact
  | spell => .spell
  | svm => .svm
  | menu => .menu
  | menuItem => .menuItem
  | camera => .camera
  | musicSystem => .musicSystem
  | musicTheme => .musicTheme
  | musicJingle => .musicJingle
  | particleEffect => .particleEffect
  | effectBase => .effectBase
  | particleEffectEmitKey => .particleEffectEmitKey
  | fightAi => .fightAi
  | soundEffect => .soundEffect
  | soundSystem => .soundSystem
  | unknown => .any

@[simp] theorem InstanceTag.tag_schema (t : InstanceTag) : t.schema.tag = t := by
  cases t <;> rfl

end ScriptMachine
