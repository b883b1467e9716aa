import PrefixRanking.Config.Json
import PrefixRanking.Json.Reader
import PrefixRanking.Prefix.Read
import PrefixRanking.Proofs.Comparison
import PrefixRanking.Proofs.Document.Acceptance
import PrefixRanking.Proofs.Loops
import PrefixRanking.Proofs.Measurements
import PrefixRanking.Proofs.Observation
import PrefixRanking.Proofs.Occurrences
import PrefixRanking.Proofs.PreferenceList
import PrefixRanking.Proofs.Quiet
import PrefixRanking.Proofs.Redundancy
import PrefixRanking.Proofs.Saving
import PrefixRanking.Proofs.Winner
import PrefixRanking.Proofs.Splitting
import PrefixRanking.Proofs.Defaults
import PrefixRanking.Proofs.Document.Recovery
import PrefixRanking.Proofs.Identifiers
import PrefixRanking.Proofs.Strategy
