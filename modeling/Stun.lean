import Stun.Client.Client
import Stun.Draft
import Stun.Files.Lookup
import Stun.Log.Quoted
import Stun.Operation
import Stun.Proofs.Client.Closing
import Stun.Proofs.Client.Deadlines
import Stun.Proofs.Client.Rounds
import Stun.Proofs.Faultless
import Stun.Proofs.Log.Delivery
import Stun.Proofs.Seal.Burst
import Stun.Proofs.Seal.Verdict
import Stun.Proofs.Transaction.Closing
import Stun.Proofs.Value.Acceptance
import Stun.Proofs.Wire.Appending
import Stun.Proofs.Wire.Building
import Stun.Proofs.Wire.Canonical
import Stun.Proofs.Wire.Injective
