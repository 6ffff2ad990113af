import Tether.Main
import Tether.Value.Equality
import Tether.Proofs.Wire.Plain
import Tether.Proofs.Wire.Refusal
import Tether.Proofs.Wire.Shortest
import Tether.Proofs.Controller.Lifecycle
import Tether.Proofs.Controller.Drain
import Tether.Proofs.Controller.Reload
import Tether.Proofs.Controller.Signals
import Tether.Proofs.Controller.Statistics
import Tether.Proofs.Controller.Panics
import Tether.Proofs.Controller.Restart
import Tether.Proofs.Controller.Phases
import Tether.Proofs.Json.Documents
import Tether.Proofs.Json.Canonical
import Tether.Proofs.CommandLine.Encoding
import Tether.Proofs.Wire.Stream
import Tether.Proofs.Wire.Handles
import Tether.Proofs.Value.Equality
import Tether.Proofs.Config.Reading
import Tether.Proofs.Session.Results
import Tether.Proofs.Json.Contents
import Tether.Proofs.Number.Finite
