import Minifier.Bundle
import Minifier.ByteSize
import Minifier.Call
import Minifier.Command
import Minifier.Discovery
import Minifier.Exclusion
import Minifier.Header
import Minifier.Json
import Minifier.Loggers
import Minifier.Main
import Minifier.Meter
import Minifier.Minify
import Minifier.Minify.ByName
import Minifier.Proofs.Bundle.Grouping
import Minifier.Proofs.Bundle.Label
import Minifier.Proofs.Bundle.Priority
import Minifier.Proofs.ByteSize
import Minifier.Proofs.Command.Service
import Minifier.Proofs.Comment.Division
import Minifier.Proofs.Comment.Patterns
import Minifier.Proofs.Css.Content
import Minifier.Proofs.Css.Passes
import Minifier.Proofs.Discovery.Listing
import Minifier.Proofs.Disk.Saving
import Minifier.Proofs.JavaScript.Content
import Minifier.Proofs.JavaScript.Lines
import Minifier.Proofs.Loggers.Histories
import Minifier.Proofs.Minify.Keeping
import Minifier.Proofs.Minify.Opaque
import Minifier.Proofs.Minify.Sizes
import Minifier.Proofs.Minify.Words
import Minifier.Proofs.Pattern.Lists
import Minifier.Proofs.Pattern.Marks
import Minifier.Proofs.Php.Content
import Minifier.Proofs.Reporter.Lines
import Minifier.Proofs.RuleSet.Laravel
import Minifier.Proofs.Run.Accounting
import Minifier.Proofs.Run.Ending
import Minifier.Proofs.Run.Mirror
import Minifier.Proofs.Run.Rerun
import Minifier.Proofs.Run.Reuse
import Minifier.Proofs.Run.Saved
import Minifier.Proofs.Run.Skipped
import Minifier.Proofs.Run.Together
import Minifier.Proofs.Run.Untouched
import Minifier.Proofs.Settings.Loading
import Minifier.Proofs.Sql.Content
import Minifier.Proofs.Sql.LeadingDashes
import Minifier.Proofs.Sql.Passes
import Minifier.Proofs.Vue.Outside
import Minifier.Reporter
import Minifier.RuleSet.BuiltIn
import Minifier.RuleSet.Filter
import Minifier.Run.Flow
import Minifier.Settings.Load
import Minifier.Summary
