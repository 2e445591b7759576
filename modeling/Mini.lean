import Mini.Main
import Mini.Proofs.Blame
import Mini.Proofs.Matching
import Mini.Proofs.Cut
import Mini.Proofs.Place
import Mini.Proofs.Registration
import Mini.Proofs.Vocabulary
import Mini.Proofs.StandardToken
import Mini.Proofs.Misplaced
import Mini.Proofs.Unplaced
import Mini.Proofs.RoundTrip
import Mini.Proofs.Layout
import Mini.Proofs.NodePlace
import Mini.Proofs.Joined
import Mini.Proofs.History
import Mini.Proofs.Legible
import Mini.Proofs.Keyword
import Mini.Proofs.Recut
import Mini.Proofs.Offset
import Mini.Proofs.Encoding
import Mini.Proofs.Channel
import Mini.Proofs.Visible
import Mini.Proofs.Report
import Mini.Proofs.Language
import Mini.Proofs.Munch
import Mini.Proofs.Session
import Mini.Proofs.Appended
import Mini.Proofs.Afresh
import Mini.Proofs.Rendering
import Mini.Proofs.Unquoted
import Mini.Proofs.Extended
import Mini.Proofs.Ties
import Mini.Proofs.Unordered
import Mini.Proofs.Decoding
import Mini.Proofs.PowerChain
import Mini.Proofs.Writable
