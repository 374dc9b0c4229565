import TemplateRender.Double.Basic
import TemplateRender.Double.Layout
import TemplateRender.Double.Shortest
import TemplateRender.Encoding.Basic
import TemplateRender.Encoding.Utf16
import TemplateRender.Encoding.Utf8
import TemplateRender.Entries
import TemplateRender.Error
import TemplateRender.Evaluation
import TemplateRender.Format.Formatters
import TemplateRender.Format.Serialize
import TemplateRender.History
import TemplateRender.Render.Evaluator
import TemplateRender.Render.Inspect
import TemplateRender.Render.Output
import TemplateRender.Render.Path
import TemplateRender.Render.Program
import TemplateRender.Render.Renderer
import TemplateRender.Render.Resolver
import TemplateRender.Render.Tag
import TemplateRender.Render.UserInfo
import TemplateRender.Stock.Formatters
import TemplateRender.Stock.Resolvers
import TemplateRender.Stock.Tags
import TemplateRender.Syntax.Basic
import TemplateRender.Syntax.Same
import TemplateRender.Syntax.Text
import TemplateRender.Text.Invisible
import TemplateRender.Text.Quoted
import TemplateRender.Value.Basic
import TemplateRender.Value.Conversion
import TemplateRender.Value.Depth
import TemplateRender.Value.Equality
import TemplateRender.Value.Resolve
import TemplateRender.Value.Text
import TemplateRender.Proofs.Purity
import TemplateRender.Proofs.Bare
import TemplateRender.Proofs.Entries
import TemplateRender.Proofs.PlainEquality
import TemplateRender.Proofs.PassesOn
import TemplateRender.Proofs.Lockstep
import TemplateRender.Proofs.Mentions
import TemplateRender.Proofs.Output
import TemplateRender.Proofs.Paired
import TemplateRender.Proofs.Simulation
import TemplateRender.Proofs.Related
import TemplateRender.Proofs.Policy
import TemplateRender.Proofs.Covers
import TemplateRender.Proofs.Layers
import TemplateRender.Proofs.Equated
import TemplateRender.Proofs.NilLayers
import TemplateRender.Proofs.EqualOutput
import TemplateRender.Proofs.ResolvedOutput
import TemplateRender.Proofs.Reordered
import TemplateRender.Proofs.MapOrder
import TemplateRender.Proofs.Contents
import TemplateRender.Proofs.LayerCount
import TemplateRender.Proofs.ComparisonEnds
import TemplateRender.Proofs.Segments
import TemplateRender.Proofs.Walks
import TemplateRender.Proofs.Meaning
import TemplateRender.Proofs.Congruence
import TemplateRender.Proofs.FreeNames
import TemplateRender.Proofs.PostOrder
import TemplateRender.Proofs.Outcomes
import TemplateRender.Proofs.ErrorSites
import TemplateRender.Proofs.Repeatable
import TemplateRender.Proofs.Decoding
import TemplateRender.Proofs.Appended
import TemplateRender.Proofs.SelfEquality
import TemplateRender.Proofs.PathComposition
import TemplateRender.Proofs.RunOrder
import TemplateRender.Proofs.ShortestDigits
import TemplateRender.Proofs.ReadingBack
import TemplateRender.Proofs.DoubleText
