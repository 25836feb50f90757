import ScriptMachine.Schema.Basic

/-!
# Dialogues and quests

The fields of dialogue options, quests and voice lines.
-/

namespace ScriptMachine

namespace Schema

/-- Dialogue options. -/
def info : Schema where
  tag := .info
  fields := [
    ⟨"npc", .int, .single, "NPC"⟩,
    ⟨"nr", .int, .single, "NR"⟩,
    ⟨"important", .int, .single, "IMPORTANT"⟩,
    ⟨"condition", .int, .single, "CONDITION"⟩,
    ⟨"information", .int, .single, "INFORMATION"⟩,
    ⟨"description", .string, .single, "DESCRIPTION"⟩,
    ⟨"trade", .int, .single, "TRADE"⟩,
    ⟨"permanent", .int, .single, "PERMANENT"⟩]

/-- Quests. The condition members hold the indices of functions. -/
def mission : Schema where
  tag := .mission
  fields := [
    ⟨"name", .string, .single, "NAME"⟩,
    ⟨"description", .string, .single, "DESCRIPTION"⟩,
    ⟨"duration", .int, .single, "DURATION"⟩,
    ⟨"important", .int, .single, "IMPORTANT"⟩,
    ⟨"offer_conditions", .int, .single, "OFFERCONDITIONS"⟩,
    ⟨"offer", .int, .single, "OFFER"⟩,
    ⟨"success_conditions", .int, .single, "SUCCESSCONDITIONS"⟩,
    ⟨"success", .int, .single, "SUCCESS"⟩,
    ⟨"failure_conditions", .int, .single, "FAILURECONDITIONS"⟩,
    ⟨"failure", .int, .single, "FAILURE"⟩,
    ⟨"obsolete_conditions", .int, .single, "OBSOLETECONDITIONS"⟩,
    ⟨"obsolete", .int, .single, "OBSOLETE"⟩,
    ⟨"running", .int, .single, "RUNNING"⟩]

/-- Voice lines. Their members differ from game to game, so no field has a fixed name. -/
def svm : Schema where
  tag := .svm
  fields := []

end Schema

end ScriptMachine
