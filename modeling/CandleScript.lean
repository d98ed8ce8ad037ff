import CandleScript.Main
import CandleScript.Proofs.Analysis.Undefined
import CandleScript.Proofs.Analysis.Violations
import CandleScript.Proofs.Analysis.Whitelist
import CandleScript.Proofs.Command.Boundary
import CandleScript.Proofs.Optimise.Meaning
import CandleScript.Proofs.Parallel.Independence
import CandleScript.Proofs.Parallel.PerCandle
import CandleScript.Proofs.Script.Statements
import CandleScript.Proofs.Script.Yield
import CandleScript.Proofs.Analysis.Targets
import CandleScript.Proofs.Ir.Flat
import CandleScript.Proofs.Run.Accounting
import CandleScript.Proofs.Run.Interruption
import CandleScript.Proofs.Run.Parity
import CandleScript.Proofs.Optimise.Session
import CandleScript.Proofs.Optimise.Skeleton
import CandleScript.Proofs.Run.Broadcast
import CandleScript.Proofs.Ir.Normal
import CandleScript.Proofs.Lexis.Writing
import CandleScript.Proofs.Command.Settings
import CandleScript.Proofs.Run.Trace
import CandleScript.Proofs.Script.Bounds
import CandleScript.Proofs.Lexis.Extent
import CandleScript.Proofs.Script.Placement
import CandleScript.Proofs.Script.Joining
import CandleScript.Proofs.Analysis.Pointing
import CandleScript.Proofs.Lexis.Blame
import CandleScript.Proofs.Indicator.Presence
import CandleScript.Proofs.Indicator.Gaps
import CandleScript.Proofs.Indicator.Memory
import CandleScript.Proofs.Indicator.Ratchet
import CandleScript.Proofs.Indicator.Recurrence
import CandleScript.Proofs.Indicator.Bands
import CandleScript.Proofs.Run.Undrawn
import CandleScript.Proofs.Run.Exchange
import CandleScript.Proofs.Settings.Ceilings
import CandleScript.Proofs.Candle.Loading
