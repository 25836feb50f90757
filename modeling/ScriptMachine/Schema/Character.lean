import ScriptMachine.Schema.Basic

/-!
# Characters and their guilds

The fields of characters, of the constants of their guilds, and of the moves they fight with.
-/

namespace ScriptMachine

namespace Schema

/-- Characters. -/
def npc : Schema where
  tag := .npc
  fields := [
    ⟨"id", .int, .single, "ID"⟩,
    ⟨"name", .string, .element, "NAME"⟩,
    ⟨"slot", .string, .single, "SLOT"⟩,
    ⟨"effect", .string, .single, "EFFECT"⟩,
    ⟨"npc_type", .int, .single, "NPCTYPE"⟩,
    ⟨"raw_flags", .int, .single, "FLAGS"⟩,
    ⟨"attribute", .int, .npcAttribute, "ATTRIBUTE"⟩,
    ⟨"hit_chance", .int, .talent, "HITCHANCE"⟩,
    ⟨"protection", .int, .damage, "PROTECTION"⟩,
    ⟨"damage", .int, .damage, "DAMAGE"⟩,
    ⟨"damage_type", .int, .single, "DAMAGETYPE"⟩,
    ⟨"guild", .int, .single, "GUILD"⟩,
    ⟨"level", .int, .single, "LEVEL"⟩,
    ⟨"mission", .int, .element, "MISSION"⟩,
    ⟨"fight_tactic", .int, .single, "FIGHT_TACTIC"⟩,
    ⟨"weapon", .int, .single, "WEAPON"⟩,
    ⟨"voice", .int, .single, "VOICE"⟩,
    ⟨"voice_pitch", .int, .single, "VOICEPITCH"⟩,
    ⟨"body_mass", .int, .single, "BODYMASS"⟩,
    ⟨"daily_routine", .int, .single, "DAILY_ROUTINE"⟩,
    ⟨"start_ai_state", .int, .single, "START_AISTATE"⟩,
    ⟨"spawn_point", .string, .single, "SPAWNPOINT"⟩,
    ⟨"spawn_delay", .int, .single, "SPAWNDELAY"⟩,
    ⟨"senses", .int, .single, "SENSES"⟩,
    ⟨"senses_range", .int, .single, "SENSES_RANGE"⟩,
    ⟨"ai_var", .int, .element, "AIVAR"⟩,
    ⟨"wp", .string, .single, "WP"⟩,
    ⟨"exp", .int, .single, "EXP"⟩,
    ⟨"exp_next", .int, .single, "EXP_NEXT"⟩,
    ⟨"lp", .int, .single, "LP"⟩,
    ⟨"body_state_interruptable_override", .int, .single, "BODYSTATEINTERRUPTABLEOVERRIDE"⟩,
    ⟨"no_focus", .int, .single, "NOFOCUS"⟩]

/-- Movement and combat constants, an element for each guild. -/
def guildValues : Schema where
  tag := .guildValues
  fields := [
    ⟨"water_depth_knee", .int, .element, "WATER_DEPTH_KNEE"⟩,
    ⟨"water_depth_chest", .int, .element, "WATER_DEPTH_CHEST"⟩,
    ⟨"jump_up_height", .int, .element, "JUMPUP_HEIGHT"⟩,
    ⟨"swim_time", .int, .element, "SWIM_TIME"⟩,
    ⟨"dive_time", .int, .element, "DIVE_TIME"⟩,
    ⟨"step_height", .int, .element, "STEP_HEIGHT"⟩,
    ⟨"jump_low_height", .int, .element, "JUMPLOW_HEIGHT"⟩,
    ⟨"jump_mid_height", .int, .element, "JUMPMID_HEIGHT"⟩,
    ⟨"slide_angle", .int, .element, "SLIDE_ANGLE"⟩,
    ⟨"slide_angle2", .int, .element, "SLIDE_ANGLE2"⟩,
    ⟨"disable_autoroll", .int, .element, "DISABLE_AUTOROLL"⟩,
    ⟨"surface_align", .int, .element, "SURFACE_ALIGN"⟩,
    ⟨"climb_heading_angle", .int, .element, "CLIMB_HEADING_ANGLE"⟩,
    ⟨"climb_horiz_angle", .int, .element, "CLIMB_HORIZ_ANGLE"⟩,
    ⟨"climb_ground_angle", .int, .element, "CLIMB_GROUND_ANGLE"⟩,
    ⟨"fight_range_base", .int, .element, "FIGHT_RANGE_BASE"⟩,
    ⟨"fight_range_fist", .int, .element, "FIGHT_RANGE_FIST"⟩,
    ⟨"fight_range_g", .int, .element, "FIGHT_RANGE_G"⟩,
    ⟨"fight_range_1hs", .int, .element, "FIGHT_RANGE_1HS"⟩,
    ⟨"fight_range_1ha", .int, .element, "FIGHT_RANGE_1HA"⟩,
    ⟨"fight_range_2hs", .int, .element, "FIGHT_RANGE_2HS"⟩,
    ⟨"fight_range_2ha", .int, .element, "FIGHT_RANGE_2HA"⟩,
    ⟨"falldown_height", .int, .element, "FALLDOWN_HEIGHT"⟩,
    ⟨"falldown_damage", .int, .element, "FALLDOWN_DAMAGE"⟩,
    ⟨"blood_disabled", .int, .element, "BLOOD_DISABLED"⟩,
    ⟨"blood_max_distance", .int, .element, "BLOOD_MAX_DISTANCE"⟩,
    ⟨"blood_amount", .int, .element, "BLOOD_AMOUNT"⟩,
    ⟨"blood_flow", .int, .element, "BLOOD_FLOW"⟩,
    ⟨"blood_emitter", .string, .element, "BLOOD_EMITTER"⟩,
    ⟨"blood_texture", .string, .element, "BLOOD_TEXTURE"⟩,
    ⟨"turn_speed", .int, .element, "TURN_SPEED"⟩]

/-- Combat move tables. -/
def fightAi : Schema where
  tag := .fightAi
  fields := [
    ⟨"raw_move", .int, .element, "MOVE"⟩]

end Schema

end ScriptMachine
