/-
This file shows that a configuration survives being written and read. All fields but the prefix
of the addresses are always written, so what they are when they are missing plays no part; the
prefix is left out exactly if there is none, and missing it is none. A text keeps every character,
and each of the two words for the way of resolving stands for that way alone.
-/

import DocEntities.Config
import DocEntities.Proofs.Json.Reading

namespace DocEntities

open Json Json.Reader

variable {layout : Layout}

theorem Resolution.ofName?_name (resolution : Resolution) :
    ofName? resolution.name = some resolution := by
  cases resolution <;> decide

namespace Config

/-- The names of the fields of a configuration, in the order in which they are written. -/
def fieldNames : List String :=
  ["includes", "ignores", "baseUrl", "utilityNamespaces", "resolution"]

/-- The fields of a configuration as they are written. -/
def fields (config : Config) : List (String × Json) :=
  [("includes", texts config.includes)] ++ [("ignores", texts config.ignores)] ++
    whenSome "baseUrl" (config.baseUrl.map .text) ++
    [("utilityNamespaces", texts config.utilityNamespaces)] ++
    [("resolution", .text config.resolution.name)]

theorem toJson_eq (config : Config) : config.toJson = .object config.fields := by
  simp [toJson, fields]

/-- The fields of a configuration are read back over the defaults, which have no prefix. -/
theorem enters_fields (spaced : layout.Spaced) (config : Config) :
    Enters layout configMember fieldNames config.fields .default config := by
  have resolution : TakesBack layout Reader.resolution (.text config.resolution.name)
      config.resolution := fun _ => reads_choice config.resolution.ofName?_name
  have enters : Enters layout configMember _ config.fields .default _ :=
    Enters.field spaced "includes" (fun _ _ => rfl) (takesBack_textList spaced config.includes)
      |>.append
        (.field spaced "ignores" (fun _ _ => rfl) (takesBack_textList spaced config.ignores))
      |>.append
        (.option spaced "baseUrl" (fun _ _ => rfl) (takesBack_text layout) config.baseUrl rfl)
      |>.append (.field spaced "utilityNamespaces" (fun _ _ => rfl)
        (takesBack_textList spaced config.utilityNamespaces))
      |>.append (.field spaced "resolution" (fun _ _ => rfl) resolution)
  exact enters

end Config

theorem takesBack_config (spaced : layout.Spaced) (config : Config) :
    TakesBack layout Reader.config config.toJson config := by
  have enters := config.enters_fields spaced
  intro depth blanks rest blank _
  unfold Reader.config
  rw [config.toJson_eq, bind_of_ok (peek_object blank layout depth _ rest)]
  show (object configMember ([], .default) >>= fun found => pure found.2) _ = _
  rw [bind_of_ok (enters.object_write spaced (by decide) depth rest)]
  rfl

/-- A configuration is read back as it was written, in any layout. -/
theorem Config.ofText_write (spaced : layout.Spaced) (config : Config) :
    Config.ofText (config.toJson.render layout) = .ok config := by
  have read := takesBack_config spaced config 0 [] [] .nil nofun
  rw [List.nil_append, List.append_nil] at read
  rw [Config.ofText, Reader.run, Json.render, String.toList_ofList, read]
  rfl

end DocEntities
