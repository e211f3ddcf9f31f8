import CairoForge.BaseModule
import CairoForge.Binary64
import CairoForge.Binary64.Rounding
import CairoForge.Binary64.Scaling
import CairoForge.Binary64.Shortest
import CairoForge.Binary64.Text
import CairoForge.Command.Arguments
import CairoForge.Command.Execution
import CairoForge.Command.Help
import CairoForge.Command.Invocation
import CairoForge.Contract
import CairoForge.Contract.Access
import CairoForge.Contract.Json
import CairoForge.Contract.Metadata
import CairoForge.Contract.Operation
import CairoForge.Contract.Pausing
import CairoForge.Contract.Upgrading
import CairoForge.FieldMessages
import CairoForge.Function
import CairoForge.Identifier
import CairoForge.Json
import CairoForge.Json.Decoding
import CairoForge.Json.Fault
import CairoForge.Json.Mismatch
import CairoForge.Json.Numeral
import CairoForge.Json.Reading
import CairoForge.Json.Scan
import CairoForge.Json.Scan.Number
import CairoForge.Json.Scan.Text
import CairoForge.Layout
import CairoForge.Main
import CairoForge.Refusal
import CairoForge.Registry
import CairoForge.Request
import CairoForge.Sha256
import CairoForge.Source.Document
import CairoForge.Source.Imports
import CairoForge.Source.Renaming
import CairoForge.Source.Routine
import CairoForge.Text.Plain
import CairoForge.Text.Quoted
import CairoForge.Text.Visible
import CairoForge.Token.Assembly
import CairoForge.Token.EntryPoint
import CairoForge.Token.Json
import CairoForge.Token.Options
import CairoForge.Value
import CairoForge.Proofs.FunctionHistory
import CairoForge.Proofs.PrintedFunctions
import CairoForge.Proofs.Mixins
import CairoForge.Proofs.Composition
import CairoForge.Proofs.ImportClosure
import CairoForge.Proofs.Signatures
import CairoForge.Proofs.TokenGuards
import CairoForge.Proofs.AccessCoherence
import CairoForge.Proofs.RelatedLists
import CairoForge.Proofs.EqualContracts
import CairoForge.Proofs.TwinRuns
import CairoForge.Proofs.SourceLines
import CairoForge.Proofs.FreeText
import CairoForge.Proofs.TextBreaks
import CairoForge.Proofs.RepeatedFeatures
import CairoForge.Proofs.ConstructorLayout
import CairoForge.Proofs.GatheredImports
import CairoForge.Proofs.SourceClosure
import CairoForge.Proofs.WrittenJson
import CairoForge.Proofs.OptionsRoundTrip
import CairoForge.Proofs.RefusedOptions
import CairoForge.Proofs.DecodedMembers
import CairoForge.Proofs.TaggedOptions
import CairoForge.Proofs.ImportedFeatures
import CairoForge.Proofs.ImportSection
import CairoForge.Proofs.SourceIdentity
import CairoForge.Proofs.SpelledJson
import CairoForge.Proofs.AcceptedJson
import CairoForge.Proofs.ReadScalars
import CairoForge.Proofs.SpoiledReadings
import CairoForge.Proofs.ReadJson
import CairoForge.Proofs.KeyedRecords
import CairoForge.Proofs.DecodedOptions
import CairoForge.Proofs.RegistryHistory
import CairoForge.Proofs.RoundingIntervals
import CairoForge.Proofs.NumberText
import CairoForge.Proofs.DistinctJson
import CairoForge.Proofs.ContractDumps
import CairoForge.Proofs.SpelledFlags
import CairoForge.Proofs.ExitCodes
import CairoForge.Proofs.CommandRoutes
import CairoForge.Proofs.InitializablePlacement
import CairoForge.Proofs.ExactIntegers
import CairoForge.Proofs.UnprintableNumbers
import CairoForge.Proofs.ContractTexts
import CairoForge.Proofs.MarkedSource
import CairoForge.Proofs.PrintedTexts
import CairoForge.Proofs.RenamedSource
import CairoForge.Proofs.SourceGaps
import CairoForge.Proofs.TextGrammars
import CairoForge.Proofs.Identifiers
import CairoForge.Proofs.RenderedValues
import CairoForge.Proofs.TagKeys
import CairoForge.Proofs.ComposedLayouts
import CairoForge.Proofs.FunctionPlaces
