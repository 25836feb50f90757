import ScriptMachine.Schema.Basic

/-!
# Music and sound

The fields of the music and sound settings, of music segments and of sound effects.
-/

namespace ScriptMachine

namespace Schema

/-- Global music settings. -/
def musicSystem : Schema where
  tag := .musicSystem
  fields := [
    ⟨"volume", .float, .single, "VOLUME"⟩,
    ⟨"bit_resolution", .int, .single, "BITRESOLUTION"⟩,
    ⟨"global_reverb_enabled", .int, .single, "GLOBALREVERBENABLED"⟩,
    ⟨"sample_rate", .int, .single, "SAMPLERATE"⟩,
    ⟨"num_channels", .int, .single, "NUMCHANNELS"⟩,
    ⟨"reverb_buffer_size", .int, .single, "REVERBBUFFERSIZE"⟩]

/-- Music segments. -/
def musicTheme : Schema where
  tag := .musicTheme
  fields := [
    ⟨"file", .string, .single, "FILE"⟩,
    ⟨"vol", .float, .single, "VOL"⟩,
    ⟨"looping", .int, .single, "LOOP"⟩,
    ⟨"reverb_mix", .float, .single, "REVERBMIX"⟩,
    ⟨"reverb_time", .float, .single, "REVERBTIME"⟩,
    ⟨"raw_trans_type", .int, .single, "TRANSTYPE"⟩,
    ⟨"trans_sub_type", .int, .single, "TRANSSUBTYPE"⟩]

/-- Short music cues. -/
def musicJingle : Schema where
  tag := .musicJingle
  fields := [
    ⟨"name", .string, .single, "NAME"⟩,
    ⟨"looping", .int, .single, "LOOP"⟩,
    ⟨"vol", .float, .single, "VOL"⟩,
    ⟨"trans_sub_type", .int, .single, "TRANSSUBTYPE"⟩]

/-- Sound effects. -/
def soundEffect : Schema where
  tag := .soundEffect
  fields := [
    ⟨"file", .string, .single, "FILE"⟩,
    ⟨"pitch_off", .int, .single, "PITCHOFF"⟩,
    ⟨"pitch_var", .int, .single, "PITCHVAR"⟩,
    ⟨"volume", .int, .single, "VOL"⟩,
    ⟨"looping", .int, .single, "LOOP"⟩,
    ⟨"loop_start_offset", .int, .single, "LOOPSTARTOFFSET"⟩,
    ⟨"loop_end_offset", .int, .single, "LOOPENDOFFSET"⟩,
    ⟨"reverb_level", .float, .single, "REVERBLEVEL"⟩,
    ⟨"pfx_name", .string, .single, "PFXNAME"⟩]

/-- Sound engine settings. -/
def soundSystem : Schema where
  tag := .soundSystem
  fields := [
    ⟨"volume", .float, .single, "VOLUME"⟩,
    ⟨"bit_resolution", .int, .single, "BITRESOLUTION"⟩,
    ⟨"sample_rate", .int, .single, "SAMPLERATE"⟩,
    ⟨"use_stereo", .int, .single, "USESTEREO"⟩,
    ⟨"num_sfx_channels", .int, .single, "NUMSFXCHANNELS"⟩,
    ⟨"used_3d_provider_name", .string, .single, "USED3DPROVIDERNAME"⟩]

end Schema

end ScriptMachine
