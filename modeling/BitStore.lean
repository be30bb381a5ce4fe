import BitStore.Bits.Search
import BitStore.Bits.Count
import BitStore.Bits.Noise
import BitStore.Bits.Word
import BitStore.BitArray.Loose
import BitStore.BitArray.Operation
import BitStore.Config.Text
import BitStore.Session.Run
import BitStore.Proofs.Bits.Ends
import BitStore.Proofs.Bits.Tightness
import BitStore.Proofs.Config.RoundTrip
import BitStore.Proofs.Bits.Words
import BitStore.Proofs.Arrays.BitMap
import BitStore.Proofs.Arrays.Equivalence
import BitStore.Proofs.Arrays.Closed
import BitStore.Proofs.Arrays.Opening
import BitStore.Proofs.Arrays.Attempts
import BitStore.Proofs.Arrays.Isolation
import BitStore.Proofs.Arrays.Persistence
import BitStore.Proofs.Arrays.Sharing
import BitStore.Proofs.Arrays.MergeEnds
import BitStore.Proofs.Arrays.Clean
import BitStore.Proofs.Arrays.Enumeration
import BitStore.Proofs.Arrays.Truncation
import BitStore.Proofs.Arrays.Aliasing
import BitStore.Proofs.Arrays.Counts
import BitStore.Proofs.Arrays.Commuting
import BitStore.Proofs.Arrays.Finality
import BitStore.Proofs.Arrays.Growth
import BitStore.Proofs.Arrays.Unstopped
import BitStore.Proofs.Session.Coherence
import BitStore.Proofs.Session.Platforms
import BitStore.Proofs.Session.Releases
