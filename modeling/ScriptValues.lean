import ScriptValues.Callback.Standard
import ScriptValues.Session.Run
import ScriptValues.World.Quiet
import ScriptValues.Proofs.Collisions
import ScriptValues.Proofs.Interleaving
import ScriptValues.Proofs.KeyContract
import ScriptValues.Proofs.Provenance
import ScriptValues.Proofs.Ledger
import ScriptValues.Proofs.Lifecycle
import ScriptValues.Proofs.Agreement
import ScriptValues.Proofs.Liveness
import ScriptValues.Proofs.Swapping
import ScriptValues.Proofs.Blindness
import ScriptValues.Proofs.Masking
import ScriptValues.Proofs.Serials
import ScriptValues.Proofs.Legibility
import ScriptValues.Proofs.Indiscernibility
import ScriptValues.Proofs.Canonicity
import ScriptValues.Proofs.Tracing
import ScriptValues.Proofs.Wiring
import ScriptValues.Proofs.Counting
import ScriptValues.Proofs.Forwarding
import ScriptValues.Proofs.Rebuilding
import ScriptValues.Proofs.FailureTexts
import ScriptValues.Proofs.DebugText
import ScriptValues.Proofs.Descriptors
