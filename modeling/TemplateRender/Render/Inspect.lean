import TemplateRender.Render.Renderer
import TemplateRender.Text.Quoted

/-!
Descriptions of a configuration for people. Functions cannot be shown, so a part that holds them
is only named, or left out behind two dots.
-/
namespace TemplateRender.Inspect

/-- A name, and labelled parts between braces. -/
def labelled (name : String) (parts : List String) : String :=
  name ++ " \x7b " ++ ", ".intercalate parts ++ " \x7d"

def part (label text : String) : String := label ++ ": " ++ text

def names (keys : List String) : String := Text.bracketed (keys.map Text.quote)

def encoding : TextEncoding → String
  | .utf8 => "Utf8"
  | .ascii => "Ascii"
  | .latin1 => "Latin1"
  | .utf16le => "Utf16Le"
  | .utf16be => "Utf16Be"

def policy : OutputPolicy → String
  | .bestEffort => "BestEffort"
  | .strict => "Strict"

def registry (tags : TagRegistry) : String :=
  labelled "TagRegistry" [part "names" (names tags.names)]

def userInfo (info : UserInfo) : String :=
  labelled "UserInfo" [part "keys" (names (Entries.sortedKeys info.entries))]

def format (config : FormatConfig) : String :=
  labelled "FormatConfig"
    [part "formatters" (labelled "Formatters" [".."]), part "encoding" (encoding config.encoding)]

def renderer (r : Renderer) : String :=
  labelled "Renderer"
    [part "tags" (registry r.tags), part "format" (format r.format),
      part "policy" (policy r.policy), ".."]

def env (e : RenderEnv) : String :=
  labelled "RenderEnv"
    [part "renderer" (renderer e.renderer), part "user_info" (userInfo e.userInfo)]

end TemplateRender.Inspect
