import GoTemplate.CommandLine.World
import GoTemplate.Main
import GoTemplate.Proofs.Generation
import GoTemplate.Proofs.Lexical.Semicolons
import GoTemplate.Proofs.OrdinaryLines
import GoTemplate.Proofs.Output.MergedSource
import GoTemplate.Proofs.Template.MarkedLines
import GoTemplate.Proofs.Syntax.ReducedSource
import GoTemplate.Proofs.Lexical.LineByLine
import GoTemplate.Proofs.Template.Rerendering
import GoTemplate.Proofs.Template.Placeholders
import GoTemplate.Proofs.Syntax.Outcomes
import GoTemplate.Proofs.Lexical.CommentView
import GoTemplate.Proofs.Lexical.SemicolonView
import GoTemplate.Proofs.Template.InstanceSource
import GoTemplate.Proofs.Template.LinePlaces
import GoTemplate.Proofs.Output.LinePlaces
import GoTemplate.Proofs.CommandLine.AllOrNothing
import GoTemplate.Proofs.Output.PackageName
import GoTemplate.Proofs.Template.Substitution
import GoTemplate.Proofs.TypeSet.Rendering
import GoTemplate.Proofs.Syntax.ParamGrouping
import GoTemplate.Proofs.Syntax.ArrayLength
import GoTemplate.Proofs.Syntax.TypeSpans
import GoTemplate.Proofs.Lexical.NumberLiterals
import GoTemplate.Proofs.Output.Renaming
import GoTemplate.Proofs.Report.Marks
import GoTemplate.Proofs.TypeSet.InsertionOrder
import GoTemplate.Proofs.Syntax.LookAheads
import GoTemplate.Proofs.Syntax.Progress
