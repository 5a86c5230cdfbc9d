import AudioFeatures.Proofs.Condition.Laziness
import AudioFeatures.Proofs.Condition.MoreLocals
import AudioFeatures.Proofs.Condition.Chains
import AudioFeatures.Proofs.Condition.Spelling
import AudioFeatures.Proofs.Extractor.Overloads
import AudioFeatures.Proofs.Extractor.Session
import AudioFeatures.Scripting.Objects
import AudioFeatures.Proofs.Layout.Reader
import AudioFeatures.Proofs.Decoded.Lossless
import AudioFeatures.Proofs.Dict
import AudioFeatures.Proofs.Layout.Tuples
import AudioFeatures.Proofs.Decoded.Recoverable
import AudioFeatures.Proofs.Decoded.Policies
import AudioFeatures.Proofs.Decoded.Rows
import AudioFeatures.Proofs.Engine.Accounted
import AudioFeatures.Proofs.Extractor.Opening
import AudioFeatures.Proofs.Extractor.Results
import AudioFeatures.Proofs.Extractor.Batches
import AudioFeatures.Proofs.Extractor.LastStage
import AudioFeatures.Proofs.Extractor.Library
import AudioFeatures.Proofs.Feature.BlankCondition
import AudioFeatures.Proofs.Feature.Patterns
import AudioFeatures.Proofs.Feature.Pipeline
import AudioFeatures.Proofs.Extractor.Texts
import AudioFeatures.Proofs.Extractor.Keys
import AudioFeatures.Proofs.Scripting.Calculation
import AudioFeatures.Proofs.Extractor.Pipelines
import AudioFeatures.Proofs.SharedEngine.Libraries
import AudioFeatures.Proofs.SharedEngine.Jobs
import AudioFeatures.Proofs.SharedEngine.Process
import AudioFeatures.Proofs.SharedEngine.Calls
import AudioFeatures.Proofs.Catalog.Outcomes
import AudioFeatures.Proofs.Catalog.Loading
import AudioFeatures.Proofs.Layout.Arrays
import AudioFeatures.Proofs.Extractor.Refusals
import AudioFeatures.Proofs.Layout.Printed
import AudioFeatures.Proofs.Layout.Offsets
import AudioFeatures.Proofs.Extractor.Buffers
import AudioFeatures.Proofs.Config
import AudioFeatures.Proofs.Catalog.Export
import AudioFeatures.Proofs.Decoded.Views
import AudioFeatures.Proofs.Condition.Spacing
import AudioFeatures.Proofs.Condition.Scan
