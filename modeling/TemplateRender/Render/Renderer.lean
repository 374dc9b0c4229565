import TemplateRender.Render.Tag

/-!
The configuration that renders share: tags, resolver, formatting, and what to do with a value
that has no text. It is put together from settings, of which a later one overrides an earlier
one.
-/
namespace TemplateRender

structure Renderer where
  tags : TagRegistry := {}
  resolver : Resolver := .context
  format : FormatConfig := {}
  policy : OutputPolicy := .bestEffort

inductive Setting where
  | tags (registry : TagRegistry)
  | resolver (resolver : Resolver)
  /-- Formatters and encoding together. -/
  | format (config : FormatConfig)
  | formatters (formatters : Formatters)
  | encoding (encoding : TextEncoding)
  | policy (policy : OutputPolicy)

namespace Renderer

def set (renderer : Renderer) : Setting → Renderer
  | .tags registry => { renderer with tags := registry }
  | .resolver resolver => { renderer with resolver := resolver }
  | .format config => { renderer with format := config }
  | .formatters formatters => { renderer with format := { renderer.format with formatters } }
  | .encoding encoding => { renderer with format := { renderer.format with encoding } }
  | .policy policy => { renderer with policy := policy }

def ofSettings (settings : List Setting) : Renderer := settings.foldl set {}

end Renderer

/-- A configuration together with the caller's data for tags. -/
structure RenderEnv where
  renderer : Renderer := {}
  userInfo : UserInfo := {}

namespace RenderEnv

def resolver (env : RenderEnv) : Resolver := env.renderer.resolver

def format (env : RenderEnv) : FormatConfig := env.renderer.format

def policy (env : RenderEnv) : OutputPolicy := env.renderer.policy

def tags (env : RenderEnv) : TagRegistry := env.renderer.tags

/-- What tags and resolvers can read of the configuration. -/
def view (env : RenderEnv) : EnvView where
  userInfo := env.userInfo
  format := env.format
  policy := env.policy
  tags := env.tags.names

/-- What a tag sees on an invocation. -/
def tagContext (env : RenderEnv) (call : Invocation) : TagContext := { call with env := env.view }

end RenderEnv

end TemplateRender
