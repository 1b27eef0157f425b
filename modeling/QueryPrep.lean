import QueryPrep.Command.Run
import QueryPrep.Http.Service
import QueryPrep.Main
import QueryPrep.Proofs.Split.Linked
import QueryPrep.Proofs.Split.Walk
import QueryPrep.Proofs.Split.Grid
import QueryPrep.Proofs.Split.Metric
import QueryPrep.Proofs.Split.Log
import QueryPrep.Proofs.Split.Part
import QueryPrep.Proofs.Split.Resume
import QueryPrep.Proofs.Split.Easing
import QueryPrep.Proofs.Split.Guarded
import QueryPrep.Proofs.Filter.Literal
import QueryPrep.Proofs.Filter.Unambiguous
import QueryPrep.Proofs.Filter.FrontEnds
import QueryPrep.Proofs.Split.FrontEnds
import QueryPrep.Proofs.Config.Search
import QueryPrep.Proofs.Log.Noninterference
import QueryPrep.Proofs.Http.Answer
import QueryPrep.Proofs.Filter.RoundTrip
import QueryPrep.Proofs.Time.Duration
import QueryPrep.Proofs.Time.Relative
import QueryPrep.Proofs.Command.Outcome
import QueryPrep.Proofs.Split.Shift
import QueryPrep.Proofs.Filter.Complete
import QueryPrep.Proofs.Filter.Editing
import QueryPrep.Proofs.Command.Table
import QueryPrep.Proofs.Time.Calendar
import QueryPrep.Proofs.Config.Layers
import QueryPrep.Proofs.Filter.WellFormed
import QueryPrep.Proofs.Split.Encoding
import QueryPrep.Proofs.Http.Quoted
