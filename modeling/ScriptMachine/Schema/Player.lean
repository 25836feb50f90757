import ScriptMachine.Schema.Basic

/-!
# Camera and focus

The fields of camera modes and of the ranges in which the player selects a target.
-/

namespace ScriptMachine

namespace Schema

/-- Camera modes. -/
def camera : Schema where
  tag := .camera
  fields := [
    ⟨"best_range", .float, .single, "BESTRANGE"⟩,
    ⟨"min_range", .float, .single, "MINRANGE"⟩,
    ⟨"max_range", .float, .single, "MAXRANGE"⟩,
    ⟨"best_elevation", .float, .single, "BESTELEVATION"⟩,
    ⟨"min_elevation", .float, .single, "MINELEVATION"⟩,
    ⟨"max_elevation", .float, .single, "MAXELEVATION"⟩,
    ⟨"best_azimuth", .float, .single, "BESTAZIMUTH"⟩,
    ⟨"min_azimuth", .float, .single, "MINAZIMUTH"⟩,
    ⟨"max_azimuth", .float, .single, "MAXAZIMUTH"⟩,
    ⟨"best_rot_z", .float, .single, "BESTROTZ"⟩,
    ⟨"min_rot_z", .float, .single, "MINROTZ"⟩,
    ⟨"max_rot_z", .float, .single, "MAXROTZ"⟩,
    ⟨"rot_offset_x", .float, .single, "ROTOFFSETX"⟩,
    ⟨"rot_offset_y", .float, .single, "ROTOFFSETY"⟩,
    ⟨"rot_offset_z", .float, .single, "ROTOFFSETZ"⟩,
    ⟨"target_offset_x", .float, .single, "TARGETOFFSETX"⟩,
    ⟨"target_offset_y", .float, .single, "TARGETOFFSETY"⟩,
    ⟨"target_offset_z", .float, .single, "TARGETOFFSETZ"⟩,
    ⟨"velo_trans", .float, .single, "VELOTRANS"⟩,
    ⟨"velo_rot", .float, .single, "VELOROT"⟩,
    ⟨"translate", .int, .single, "TRANSLATE"⟩,
    ⟨"rotate", .int, .single, "ROTATE"⟩,
    ⟨"collision", .int, .single, "COLLISION"⟩]

/-- Focus ranges for the selection of a target. -/
def focus : Schema where
  tag := .focus
  fields := [
    ⟨"npc_longrange", .float, .single, "NPC_LONGRANGE"⟩,
    ⟨"npc_range1", .float, .single, "NPC_RANGE1"⟩,
    ⟨"npc_range2", .float, .single, "NPC_RANGE2"⟩,
    ⟨"npc_azi", .float, .single, "NPC_AZI"⟩,
    ⟨"npc_elevdo", .float, .single, "NPC_ELEVDO"⟩,
    ⟨"npc_elevup", .float, .single, "NPC_ELEVUP"⟩,
    ⟨"npc_prio", .int, .single, "NPC_PRIO"⟩,
    ⟨"item_range1", .float, .single, "ITEM_RANGE1"⟩,
    ⟨"item_range2", .float, .single, "ITEM_RANGE2"⟩,
    ⟨"item_azi", .float, .single, "ITEM_AZI"⟩,
    ⟨"item_elevdo", .float, .single, "ITEM_ELEVDO"⟩,
    ⟨"item_elevup", .float, .single, "ITEM_ELEVUP"⟩,
    ⟨"item_prio", .int, .single, "ITEM_PRIO"⟩,
    ⟨"mob_range1", .float, .single, "MOB_RANGE1"⟩,
    ⟨"mob_range2", .float, .single, "MOB_RANGE2"⟩,
    ⟨"mob_azi", .float, .single, "MOB_AZI"⟩,
    ⟨"mob_elevdo", .float, .single, "MOB_ELEVDO"⟩,
    ⟨"mob_elevup", .float, .single, "MOB_ELEVUP"⟩,
    ⟨"mob_prio", .int, .single, "MOB_PRIO"⟩]

end Schema

end ScriptMachine
