import RipSim.Reference.Conformance
import RipSim.Reference.Accesses
import RipSim.Pipeline.Counters
import RipSim.Pipeline.Protocol
import RipSim.Pipeline.Alignment
import RipSim.Refinement.CycleCount
import RipSim.Refinement.PreciseStop
import RipSim.Refinement.Epilogue
import RipSim.Refinement.Console
import RipSim.Refinement.History
import RipSim.Refinement.Statistics
import RipSim.Agreement.CSRs
import RipSim.Agreement.SystemState
import RipSim.Agreement.Transfers
import RipSim.Agreement.Addresses
import RipSim.Encoding.Rebuilt
import RipSim.Encoding.Layout
import RipSim.Encoding.Shown
import RipSim.Encoding.Views
import RipSim.State.StatusFields
import RipSim.State.Loading
import RipSim.Predictors.TwoBit
import RipSim.Predictors.Weights
import RipSim.Predictors.Arithmetic
import RipSim.Reference.Machine
import RipSim.Pipeline.Stepping
import RipSim.Refinement.Settled
import RipSim.Refinement.Traps
import RipSim.Refinement.Served
import RipSim.Refinement.CsrOrder
import RipSim.Refinement.Alike
import RipSim.Refinement.Machine
import RipSim.Refinement.Predictions
import RipSim.Refinement.Replay
import RipSim.Refinement.Mistakes
import RipSim.Refinement.Perceptron
import RipSim.Interactive.Protocol
import RipSim.Interactive.Sessions
import RipSim.Interactive.Hosted
