import ScriptMachine.Schema.Basic

/-!
# Items and trade

The fields of items and of the reactions to offers in a trade.
-/

namespace ScriptMachine

namespace Schema

/-- Items. -/
def item : Schema where
  tag := .item
  fields := [
    ⟨"id", .int, .single, "ID"⟩,
    ⟨"name", .string, .single, "NAME"⟩,
    ⟨"name_id", .string, .single, "NAMEID"⟩,
    ⟨"hp", .int, .single, "HP"⟩,
    ⟨"hp_max", .int, .single, "HP_MAX"⟩,
    ⟨"main_flag", .int, .single, "MAINFLAG"⟩,
    ⟨"raw_flags", .int, .single, "FLAGS"⟩,
    ⟨"weight", .int, .single, "WEIGHT"⟩,
    ⟨"value", .int, .single, "VALUE"⟩,
    ⟨"damage_type", .int, .single, "DAMAGETYPE"⟩,
    ⟨"damage_total", .int, .single, "DAMAGETOTAL"⟩,
    ⟨"damage", .int, .damage, "DAMAGE"⟩,
    ⟨"wear", .int, .single, "WEAR"⟩,
    ⟨"protection", .int, .damage, "PROTECTION"⟩,
    ⟨"nutrition", .int, .single, "NUTRITION"⟩,
    ⟨"cond_atr", .int, .element, "COND_ATR"⟩,
    ⟨"cond_value", .int, .element, "COND_VALUE"⟩,
    ⟨"change_atr", .int, .element, "CHANGE_ATR"⟩,
    ⟨"change_value", .int, .element, "CHANGE_VALUE"⟩,
    ⟨"magic", .int, .single, "MAGIC"⟩,
    ⟨"on_equip", .int, .single, "ON_EQUIP"⟩,
    ⟨"on_unequip", .int, .single, "ON_UNEQUIP"⟩,
    ⟨"on_state", .int, .element, "ON_STATE"⟩,
    ⟨"owner", .int, .single, "OWNER"⟩,
    ⟨"owner_guild", .int, .single, "OWNERGUILD"⟩,
    ⟨"disguise_guild", .int, .single, "DISGUISEGUILD"⟩,
    ⟨"visual", .string, .single, "VISUAL"⟩,
    ⟨"visual_change", .string, .single, "VISUAL_CHANGE"⟩,
    ⟨"effect", .string, .single, "EFFECT"⟩,
    ⟨"visual_skin", .int, .single, "VISUAL_SKIN"⟩,
    ⟨"scheme_name", .string, .single, "SCEMENAME"⟩,
    ⟨"material", .int, .single, "MATERIAL"⟩,
    ⟨"munition", .int, .single, "MUNITION"⟩,
    ⟨"spell", .int, .single, "SPELL"⟩,
    ⟨"range", .int, .single, "RANGE"⟩,
    ⟨"mag_circle", .int, .single, "MAG_CIRCLE"⟩,
    ⟨"description", .string, .single, "DESCRIPTION"⟩,
    ⟨"text", .string, .element, "TEXT"⟩,
    ⟨"count", .int, .element, "COUNT"⟩,
    ⟨"inv_z_bias", .int, .single, "INV_ZBIAS"⟩,
    ⟨"inv_rot_x", .int, .single, "INV_ROTX"⟩,
    ⟨"inv_rot_y", .int, .single, "INV_ROTY"⟩,
    ⟨"inv_rot_z", .int, .single, "INV_ROTZ"⟩,
    ⟨"inv_animate", .int, .single, "INV_ANIMATE"⟩]

/-- Trade reactions. -/
def itemReact : Schema where
  tag := .itemReact
  fields := [
    ⟨"npc", .int, .single, "NPC"⟩,
    ⟨"trade_item", .int, .single, "TRADE_ITEM"⟩,
    ⟨"trade_amount", .int, .single, "TRADE_AMOUNT"⟩,
    ⟨"requested_category", .int, .single, "REQUESTED_CAT"⟩,
    ⟨"requested_item", .int, .single, "REQUESTED_ITEM"⟩,
    ⟨"requested_amount", .int, .single, "REQUESTED_AMOUNT"⟩,
    ⟨"reaction", .int, .single, "REACTION"⟩]

end Schema

end ScriptMachine
