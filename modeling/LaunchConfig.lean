import LaunchConfig.Arguments.CommandLine
import LaunchConfig.Arguments.Grammar
import LaunchConfig.Arguments.Parse
import LaunchConfig.Arguments.Reading
import LaunchConfig.Arguments.Token
import LaunchConfig.Arguments.UsageError
import LaunchConfig.Configuration.Basic
import LaunchConfig.Configuration.CacheUsage
import LaunchConfig.Configuration.Encoding
import LaunchConfig.Configuration.Logging
import LaunchConfig.Configuration.Property
import LaunchConfig.Configuration.Stacktrace
import LaunchConfig.Conversion.Build
import LaunchConfig.Conversion.BuildOption
import LaunchConfig.Conversion.Error
import LaunchConfig.Conversion.Logging
import LaunchConfig.Dict
import LaunchConfig.Json.Basic
import LaunchConfig.Json.Pretty
import LaunchConfig.Launcher.Failure
import LaunchConfig.Launcher.Help
import LaunchConfig.Launcher.Launch
import LaunchConfig.Launcher.Seed
import LaunchConfig.Main
import LaunchConfig.Options.Schema
import LaunchConfig.Options.Spec
import LaunchConfig.Overlay
import LaunchConfig.Proofs.Arguments.Acceptance
import LaunchConfig.Proofs.Arguments.Building
import LaunchConfig.Proofs.Arguments.Crashing
import LaunchConfig.Proofs.Arguments.Extension
import LaunchConfig.Proofs.Arguments.Joining
import LaunchConfig.Proofs.Arguments.LeftOut
import LaunchConfig.Proofs.Arguments.LongNames
import LaunchConfig.Proofs.Arguments.Lookup
import LaunchConfig.Proofs.Arguments.Mixing
import LaunchConfig.Proofs.Arguments.NamedTasks
import LaunchConfig.Proofs.Arguments.Occurrence
import LaunchConfig.Proofs.Arguments.Pieces
import LaunchConfig.Proofs.Arguments.Reordering
import LaunchConfig.Proofs.Arguments.Request
import LaunchConfig.Proofs.Arguments.Respelling
import LaunchConfig.Proofs.Arguments.Scanning
import LaunchConfig.Proofs.Arguments.Spelling
import LaunchConfig.Proofs.Arguments.Splitting
import LaunchConfig.Proofs.Arguments.Trailing
import LaunchConfig.Proofs.Arguments.Writing
import LaunchConfig.Proofs.Configuration.Decoding
import LaunchConfig.Proofs.Configuration.Merging
import LaunchConfig.Proofs.Conversion.Attainable
import LaunchConfig.Proofs.Conversion.Commuting
import LaunchConfig.Proofs.Conversion.DeprecatedFlags
import LaunchConfig.Proofs.Conversion.Effect
import LaunchConfig.Proofs.Conversion.Failure
import LaunchConfig.Proofs.Conversion.GivenProperties
import LaunchConfig.Proofs.Conversion.Independence
import LaunchConfig.Proofs.Conversion.Layering
import LaunchConfig.Proofs.Conversion.LoggingSource
import LaunchConfig.Proofs.Conversion.Records
import LaunchConfig.Proofs.Conversion.Repetition
import LaunchConfig.Proofs.Conversion.Written
import LaunchConfig.Proofs.Json.Reader
import LaunchConfig.Proofs.Json.RoundTrip
import LaunchConfig.Proofs.Launcher.ErrorLine
import LaunchConfig.Proofs.Launcher.Log
import LaunchConfig.Proofs.Launcher.Output
import LaunchConfig.Proofs.Options.Configuring
import LaunchConfig.Proofs.Options.Lists
import LaunchConfig.Proofs.Options.Registered
import LaunchConfig.Proofs.Options.Steps
import LaunchConfig.Proofs.Overlay.EmbeddedScript
import LaunchConfig.Proofs.Overlay.Failure
import LaunchConfig.Proofs.Overlay.Progress
import LaunchConfig.Proofs.Text.Concatenation
import LaunchConfig.Proofs.Text.Quoting
import LaunchConfig.Proofs.Text.Utf8
import LaunchConfig.Record
import LaunchConfig.Text.Cut
import LaunchConfig.Text.Hidden
import LaunchConfig.Text.Paragraph
import LaunchConfig.Text.Quoted
import LaunchConfig.Text.RawText
import LaunchConfig.Text.Utf8
import LaunchConfig.Text.Wrap
