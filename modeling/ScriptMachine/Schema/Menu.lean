import ScriptMachine.Schema.Basic

/-!
# Menus

The fields of menus and of their entries.
-/

namespace ScriptMachine

namespace Schema

/-- Menus. The items are named by their symbols. -/
def menu : Schema where
  tag := .menu
  fields := [
    ⟨"back_pic", .string, .single, "BACKPIC"⟩,
    ⟨"back_world", .string, .single, "BACKWORLD"⟩,
    ⟨"pos_x", .int, .single, "POSX"⟩,
    ⟨"pos_y", .int, .single, "POSY"⟩,
    ⟨"dim_x", .int, .single, "DIMX"⟩,
    ⟨"dim_y", .int, .single, "DIMY"⟩,
    ⟨"alpha", .int, .single, "ALPHA"⟩,
    ⟨"music_theme", .string, .single, "MUSICTHEME"⟩,
    ⟨"event_timer_msec", .int, .single, "EVENTTIMERMSEC"⟩,
    ⟨"item", .string, .element, "ITEMS"⟩,
    ⟨"flags", .int, .single, "FLAGS"⟩,
    ⟨"default_outgame", .int, .single, "DEFAULTOUTGAME"⟩,
    ⟨"default_ingame", .int, .single, "DEFAULTINGAME"⟩]

/-- Menu entries. -/
def menuItem : Schema where
  tag := .menuItem
  fields := [
    ⟨"font_name", .string, .single, "FONTNAME"⟩,
    ⟨"text", .string, .element, "TEXT"⟩,
    ⟨"backpic", .string, .single, "BACKPIC"⟩,
    ⟨"alpha_mode", .string, .single, "ALPHAMODE"⟩,
    ⟨"alpha", .int, .single, "ALPHA"⟩,
    ⟨"raw_type", .int, .single, "TYPE"⟩,
    ⟨"on_sel_action", .int, .element, "ONSELACTION"⟩,
    ⟨"on_sel_action_s", .string, .element, "ONSELACTION_S"⟩,
    ⟨"on_chg_set_option", .string, .single, "ONCHGSETOPTION"⟩,
    ⟨"on_chg_set_option_section", .string, .single, "ONCHGSETOPTIONSECTION"⟩,
    ⟨"on_event_action", .int, .element, "ONEVENTACTION"⟩,
    ⟨"pos_x", .int, .single, "POSX"⟩,
    ⟨"pos_y", .int, .single, "POSY"⟩,
    ⟨"dim_x", .int, .single, "DIMX"⟩,
    ⟨"dim_y", .int, .single, "DIMY"⟩,
    ⟨"size_start_scale", .float, .single, "SIZESTARTSCALE"⟩,
    ⟨"flags", .int, .single, "FLAGS"⟩,
    ⟨"open_delay_time", .float, .single, "OPENDELAYTIME"⟩,
    ⟨"open_duration", .float, .single, "OPENDURATION"⟩,
    ⟨"user_float", .float, .element, "USERFLOAT"⟩,
    ⟨"user_string", .string, .element, "USERSTRING"⟩,
    ⟨"frame_pos_x", .int, .single, "FRAMEPOSX"⟩,
    ⟨"frame_pos_y", .int, .single, "FRAMEPOSY"⟩,
    ⟨"frame_size_x", .int, .single, "FRAMESIZEX"⟩,
    ⟨"frame_size_y", .int, .single, "FRAMESIZEY"⟩,
    ⟨"hide_if_option_section_set", .string, .single, "HIDEIFOPTIONSECTIONSET"⟩,
    ⟨"hide_if_option_set", .string, .single, "HIDEIFOPTIONSET"⟩,
    ⟨"hide_on_value", .int, .single, "HIDEONVALUE"⟩]

end Schema

end ScriptMachine
