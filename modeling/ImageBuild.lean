import ImageBuild.ContextEngine.Basic
import ImageBuild.Main
import ImageBuild.ScriptedEngine
import ImageBuild.Service
import ImageBuild.Proofs.Commit
import ImageBuild.Proofs.Delivery
import ImageBuild.Proofs.Outbound
import ImageBuild.Proofs.Traffic
import ImageBuild.Proofs.Rejection
import ImageBuild.Proofs.Records
import ImageBuild.Proofs.Registry
import ImageBuild.Proofs.Duplex
import ImageBuild.Proofs.ImageId
import ImageBuild.Proofs.StepLines
import ImageBuild.Proofs.Version
import ImageBuild.Proofs.DefaultVersion
import ImageBuild.Proofs.Json.Values
import ImageBuild.Proofs.Frames
import ImageBuild.Proofs.LastStep
import ImageBuild.Proofs.Heeding
import ImageBuild.Proofs.Cancelled
import ImageBuild.Proofs.Keeping
import ImageBuild.Proofs.Resting
import ImageBuild.Proofs.Expiry
import ImageBuild.Proofs.Timeout
import ImageBuild.Proofs.Coalescing
import ImageBuild.Proofs.Recency
import ImageBuild.Proofs.Pruning
import ImageBuild.Proofs.Family
import ImageBuild.Proofs.Quiet
import ImageBuild.Proofs.Decoding
import ImageBuild.Proofs.View
import ImageBuild.Proofs.Gating
import ImageBuild.Proofs.Reads
import ImageBuild.Proofs.Reports
import ImageBuild.Proofs.Layout
import ImageBuild.Proofs.Json.Forms
import ImageBuild.Proofs.Options
import ImageBuild.Proofs.Toml.Sections
import ImageBuild.Proofs.Net.Address
import ImageBuild.Proofs.Settings
import ImageBuild.Proofs.Lines
import ImageBuild.Proofs.Json.Continued
import ImageBuild.Proofs.Json.Delimited
import ImageBuild.Proofs.Concatenation
import ImageBuild.Proofs.Paths
import ImageBuild.Proofs.Contents
import ImageBuild.Proofs.Inspection
