import ScriptMachine.Schema.Basic

/-!
# Spells and effects

The fields of spells, particle emitters and visual effects.
-/

namespace ScriptMachine

namespace Schema

/-- Spell parameters. -/
def spell : Schema where
  tag := .spell
  fields := [
    ⟨"time_per_mana", .float, .single, "TIME_PER_MANA"⟩,
    ⟨"damage_per_level", .int, .single, "DAMAGE_PER_LEVEL"⟩,
    ⟨"damage_type", .int, .single, "DAMAGETYPE"⟩,
    ⟨"spell_type", .int, .single, "SPELLTYPE"⟩,
    ⟨"can_turn_during_invest", .int, .single, "CANTURNDURINGINVEST"⟩,
    ⟨"can_change_target_during_invest", .int, .single, "CANCHANGETARGETDURINGINVEST"⟩,
    ⟨"is_multi_effect", .int, .single, "ISMULTIEFFECT"⟩,
    ⟨"target_collect_algo", .int, .single, "TARGETCOLLECTALGO"⟩,
    ⟨"target_collect_type", .int, .single, "TARGETCOLLECTTYPE"⟩,
    ⟨"target_collect_range", .int, .single, "TARGETCOLLECTRANGE"⟩,
    ⟨"target_collect_azi", .int, .single, "TARGETCOLLECTAZI"⟩,
    ⟨"target_collect_elev", .int, .single, "TARGETCOLLECTELEV"⟩]

/-- Particle emitters. Fields whose names end in `_s` hold lists of values as text. -/
def particleEffect : Schema where
  tag := .particleEffect
  fields := [
    ⟨"pps_value", .float, .single, "PPSVALUE"⟩,
    ⟨"pps_scale_keys_s", .string, .single, "PPSSCALEKEYS_S"⟩,
    ⟨"pps_is_looping", .int, .single, "PPSISLOOPING"⟩,
    ⟨"pps_is_smooth", .int, .single, "PPSISSMOOTH"⟩,
    ⟨"pps_fps", .float, .single, "PPSFPS"⟩,
    ⟨"pps_create_em_s", .string, .single, "PPSCREATEEM_S"⟩,
    ⟨"pps_create_em_delay", .float, .single, "PPSCREATEEMDELAY"⟩,
    ⟨"shp_type_s", .string, .single, "SHPTYPE_S"⟩,
    ⟨"shp_for_s", .string, .single, "SHPFOR_S"⟩,
    ⟨"shp_offset_vec_s", .string, .single, "SHPOFFSETVEC_S"⟩,
    ⟨"shp_distrib_type_s", .string, .single, "SHPDISTRIBTYPE_S"⟩,
    ⟨"shp_distrib_walk_speed", .float, .single, "SHPDISTRIBWALKSPEED"⟩,
    ⟨"shp_is_volume", .int, .single, "SHPISVOLUME"⟩,
    ⟨"shp_dim_s", .string, .single, "SHPDIM_S"⟩,
    ⟨"shp_mesh_s", .string, .single, "SHPMESH_S"⟩,
    ⟨"shp_mesh_render_b", .int, .single, "SHPMESHRENDER_B"⟩,
    ⟨"shp_scale_keys_s", .string, .single, "SHPSCALEKEYS_S"⟩,
    ⟨"shp_scale_is_looping", .int, .single, "SHPSCALEISLOOPING"⟩,
    ⟨"shp_scale_is_smooth", .int, .single, "SHPSCALEISSMOOTH"⟩,
    ⟨"shp_scale_fps", .float, .single, "SHPSCALEFPS"⟩,
    ⟨"dir_mode_s", .string, .single, "DIRMODE_S"⟩,
    ⟨"dir_for_s", .string, .single, "DIRFOR_S"⟩,
    ⟨"dir_mode_target_for_s", .string, .single, "DIRMODETARGETFOR_S"⟩,
    ⟨"dir_mode_target_pos_s", .string, .single, "DIRMODETARGETPOS_S"⟩,
    ⟨"dir_angle_head", .float, .single, "DIRANGLEHEAD"⟩,
    ⟨"dir_angle_head_var", .float, .single, "DIRANGLEHEADVAR"⟩,
    ⟨"dir_angle_elev", .float, .single, "DIRANGLEELEV"⟩,
    ⟨"dir_angle_elev_var", .float, .single, "DIRANGLEELEVVAR"⟩,
    ⟨"vel_avg", .float, .single, "VELAVG"⟩,
    ⟨"vel_var", .float, .single, "VELVAR"⟩,
    ⟨"lsp_part_avg", .float, .single, "LSPPARTAVG"⟩,
    ⟨"lsp_part_var", .float, .single, "LSPPARTVAR"⟩,
    ⟨"fly_gravity_s", .string, .single, "FLYGRAVITY_S"⟩,
    ⟨"fly_colldet_b", .int, .single, "FLYCOLLDET_B"⟩,
    ⟨"vis_name_s", .string, .single, "VISNAME_S"⟩,
    ⟨"vis_orientation_s", .string, .single, "VISORIENTATION_S"⟩,
    ⟨"vis_tex_is_quadpoly", .int, .single, "VISTEXISQUADPOLY"⟩,
    ⟨"vis_tex_ani_fps", .float, .single, "VISTEXANIFPS"⟩,
    ⟨"vis_tex_ani_is_looping", .int, .single, "VISTEXANIISLOOPING"⟩,
    ⟨"vis_tex_color_start_s", .string, .single, "VISTEXCOLORSTART_S"⟩,
    ⟨"vis_tex_color_end_s", .string, .single, "VISTEXCOLOREND_S"⟩,
    ⟨"vis_size_start_s", .string, .single, "VISSIZESTART_S"⟩,
    ⟨"vis_size_end_scale", .float, .single, "VISSIZEENDSCALE"⟩,
    ⟨"vis_alpha_func_s", .string, .single, "VISALPHAFUNC_S"⟩,
    ⟨"vis_alpha_start", .float, .single, "VISALPHASTART"⟩,
    ⟨"vis_alpha_end", .float, .single, "VISALPHAEND"⟩,
    ⟨"trl_fade_speed", .float, .single, "TRLFADESPEED"⟩,
    ⟨"trl_texture_s", .string, .single, "TRLTEXTURE_S"⟩,
    ⟨"trl_width", .float, .single, "TRLWIDTH"⟩,
    ⟨"mrk_fade_speed", .float, .single, "MRKFADESPEED"⟩,
    ⟨"mrk_texture_s", .string, .single, "MRKTEXTURE_S"⟩,
    ⟨"mrk_size", .float, .single, "MRKSIZE"⟩,
    ⟨"flock_mode", .string, .single, "FLOCKMODE"⟩,
    ⟨"flock_strength", .float, .single, "FLOCKSTRENGTH"⟩,
    ⟨"use_emitters_for", .int, .single, "USEEMITTERSFOR"⟩,
    ⟨"time_start_end_s", .string, .single, "TIMESTARTEND_S"⟩,
    ⟨"m_bis_ambient_pfx", .int, .single, "M_BISAMBIENTPFX"⟩]

/-- Spell and visual effects. -/
def effectBase : Schema where
  tag := .effectBase
  fields := [
    ⟨"vis_name_s", .string, .single, "VISNAME_S"⟩,
    ⟨"vis_size_s", .string, .single, "VISSIZE_S"⟩,
    ⟨"vis_alpha", .float, .single, "VISALPHA"⟩,
    ⟨"vis_alpha_blend_func_s", .string, .single, "VISALPHABLENDFUNC_S"⟩,
    ⟨"vis_tex_ani_fps", .float, .single, "VISTEXANIFPS"⟩,
    ⟨"vis_tex_ani_is_looping", .int, .single, "VISTEXANIISLOOPING"⟩,
    ⟨"em_trj_mode_s", .string, .single, "EMTRJMODE_S"⟩,
    ⟨"em_trj_origin_node", .string, .single, "EMTRJORIGINNODE"⟩,
    ⟨"em_trj_target_node", .string, .single, "EMTRJTARGETNODE"⟩,
    ⟨"em_trj_target_range", .float, .single, "EMTRJTARGETRANGE"⟩,
    ⟨"em_trj_target_azi", .float, .single, "EMTRJTARGETAZI"⟩,
    ⟨"em_trj_target_elev", .float, .single, "EMTRJTARGETELEV"⟩,
    ⟨"em_trj_num_keys", .int, .single, "EMTRJNUMKEYS"⟩,
    ⟨"em_trj_num_keys_var", .int, .single, "EMTRJNUMKEYSVAR"⟩,
    ⟨"em_trj_angle_elev_var", .float, .single, "EMTRJANGLEELEVVAR"⟩,
    ⟨"em_trj_angle_head_var", .float, .single, "EMTRJANGLEHEADVAR"⟩,
    ⟨"em_trj_key_dist_var", .float, .single, "EMTRJKEYDISTVAR"⟩,
    ⟨"em_trj_loop_mode_s", .string, .single, "EMTRJLOOPMODE_S"⟩,
    ⟨"em_trj_ease_func_s", .string, .single, "EMTRJEASEFUNC_S"⟩,
    ⟨"em_trj_ease_vel", .float, .single, "EMTRJEASEVEL"⟩,
    ⟨"em_trj_dyn_update_delay", .float, .single, "EMTRJDYNUPDATEDELAY"⟩,
    ⟨"em_trj_dyn_update_target_only", .int, .single, "EMTRJDYNUPDATETARGETONLY"⟩,
    ⟨"em_fx_create_s", .string, .single, "EMFXCREATE_S"⟩,
    ⟨"em_fx_invest_origin_s", .string, .single, "EMFXINVESTORIGIN_S"⟩,
    ⟨"em_fx_invest_target_s", .string, .single, "EMFXINVESTTARGET_S"⟩,
    ⟨"em_fx_trigger_delay", .float, .single, "EMFXTRIGGERDELAY"⟩,
    ⟨"em_fx_create_down_trj", .int, .single, "EMFXCREATEDOWNTRJ"⟩,
    ⟨"em_action_coll_dyn_s", .string, .single, "EMACTIONCOLLDYN_S"⟩,
    ⟨"em_action_coll_stat_s", .string, .single, "EMACTIONCOLLSTAT_S"⟩,
    ⟨"em_fx_coll_stat_s", .string, .single, "EMFXCOLLSTAT_S"⟩,
    ⟨"em_fx_coll_dyn_s", .string, .single, "EMFXCOLLDYN_S"⟩,
    ⟨"em_fx_coll_stat_align_s", .string, .single, "EMFXCOLLSTATALIGN_S"⟩,
    ⟨"em_fx_coll_dyn_align_s", .string, .single, "EMFXCOLLDYNALIGN_S"⟩,
    ⟨"em_fx_lifespan", .float, .single, "EMFXLIFESPAN"⟩,
    ⟨"em_check_collision", .int, .single, "EMCHECKCOLLISION"⟩,
    ⟨"em_adjust_shp_to_origin", .int, .single, "EMADJUSTSHPTOORIGIN"⟩,
    ⟨"em_invest_next_key_duration", .float, .single, "EMINVESTNEXTKEYDURATION"⟩,
    ⟨"em_fly_gravity", .float, .single, "EMFLYGRAVITY"⟩,
    ⟨"em_self_rot_vel_s", .string, .single, "EMSELFROTVEL_S"⟩,
    ⟨"user_string", .string, .element, "USERSTRING"⟩,
    ⟨"light_preset_name", .string, .single, "LIGHTPRESETNAME"⟩,
    ⟨"sfx_id", .string, .single, "SFXID"⟩,
    ⟨"sfx_is_ambient", .int, .single, "SFXISAMBIENT"⟩,
    ⟨"send_assess_magic", .int, .single, "SENDASSESSMAGIC"⟩,
    ⟨"secs_per_damage", .float, .single, "SECSPERDAMAGE"⟩,
    ⟨"em_fx_coll_dyn_perc_s", .string, .single, "EMFXCOLLDYNPERC_S"⟩]

/-- What an effect changes at a key. -/
def particleEffectEmitKey : Schema where
  tag := .particleEffectEmitKey
  fields := [
    ⟨"vis_name_s", .string, .single, "VISNAME_S"⟩,
    ⟨"vis_size_scale", .float, .single, "VISSIZESCALE"⟩,
    ⟨"scale_duration", .float, .single, "SCALEDURATION"⟩,
    ⟨"pfx_pps_value", .float, .single, "PFX_PPSVALUE"⟩,
    ⟨"pfx_pps_is_smooth_chg", .int, .single, "PFX_PPSISSMOOTHCHG"⟩,
    ⟨"pfx_pps_is_looping_chg", .int, .single, "PFX_PPSISLOOPINGCHG"⟩,
    ⟨"pfx_sc_time", .float, .single, "PFX_SCTIME"⟩,
    ⟨"pfx_fly_gravity_s", .string, .single, "PFX_FLYGRAVITY_S"⟩,
    ⟨"pfx_shp_dim_s", .string, .single, "PFX_SHPDIM_S"⟩,
    ⟨"pfx_shp_is_volume_chg", .int, .single, "PFX_SHPISVOLUMECHG"⟩,
    ⟨"pfx_shp_scale_fps", .float, .single, "PFX_SHPSCALEFPS"⟩,
    ⟨"pfx_shp_distrib_walk_speed", .float, .single, "PFX_SHPDISTRIBWALKSPEED"⟩,
    ⟨"pfx_shp_offset_vec_s", .string, .single, "PFX_SHPOFFSETVEC_S"⟩,
    ⟨"pfx_shp_distrib_type_s", .string, .single, "PFX_SHPDISTRIBTYPE_S"⟩,
    ⟨"pfx_dir_mode_s", .string, .single, "PFX_DIRMODE_S"⟩,
    ⟨"pfx_dir_for_s", .string, .single, "PFX_DIRFOR_S"⟩,
    ⟨"pfx_dir_mode_target_for_s", .string, .single, "PFX_DIRMODETARGETFOR_S"⟩,
    ⟨"pfx_dir_mode_target_pos_s", .string, .single, "PFX_DIRMODETARGETPOS_S"⟩,
    ⟨"pfx_vel_avg", .float, .single, "PFX_VELAVG"⟩,
    ⟨"pfx_lsp_part_avg", .float, .single, "PFX_LSPPARTAVG"⟩,
    ⟨"pfx_vis_alpha_start", .float, .single, "PFX_VISALPHASTART"⟩,
    ⟨"light_preset_name", .string, .single, "LIGHTPRESETNAME"⟩,
    ⟨"light_range", .float, .single, "LIGHTRANGE"⟩,
    ⟨"sfx_id", .string, .single, "SFXID"⟩,
    ⟨"sfx_is_ambient", .int, .single, "SFXISAMBIENT"⟩,
    ⟨"em_create_fx_id", .string, .single, "EMCREATEFXID"⟩,
    ⟨"em_fly_gravity", .float, .single, "EMFLYGRAVITY"⟩,
    ⟨"em_self_rot_vel_s", .string, .single, "EMSELFROTVEL_S"⟩,
    ⟨"em_trj_mode_s", .string, .single, "EMTRJMODE_S"⟩,
    ⟨"em_trj_ease_vel", .float, .single, "EMTRJEASEVEL"⟩,
    ⟨"em_check_collision", .int, .single, "EMCHECKCOLLISION"⟩,
    ⟨"em_fx_lifespan", .float, .single, "EMFXLIFESPAN"⟩]

end Schema

end ScriptMachine
