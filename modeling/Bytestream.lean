import Bytestream.DecodeError.Release
import Bytestream.FloatBits
import Bytestream.Log.Console
import Bytestream.Proofs.Decoder.Bulk
import Bytestream.Proofs.Decoder.Name
import Bytestream.Proofs.Decoder.Vector
import Bytestream.Proofs.FloatBits.Extremes
import Bytestream.Proofs.FloatBits.Value
import Bytestream.Proofs.Log.Transcript
import Bytestream.Proofs.Machine.Reachable
import Bytestream.Proofs.Read.FailurePath
import Bytestream.Proofs.Read.Offsets
import Bytestream.Proofs.Read.Refill
import Bytestream.Proofs.Read.Translation
import Bytestream.Proofs.Release
import Bytestream.Proofs.Schema.RoundTrip
import Bytestream.Proofs.Status.Display
import Bytestream.Proofs.Status.Inspect
import Bytestream.Proofs.Status.OfError
import Bytestream.Proofs.Status.Parts
import Bytestream.Proofs.Text.Quoted
import Bytestream.Proofs.Tracer.Run
import Bytestream.Proofs.Varint.Agreement
import Bytestream.Proofs.Varint.SignedPadding
import Bytestream.Proofs.Word.Rotate
import Bytestream.Status.OfError
import Bytestream.Status.Release
import Bytestream.Status.Text
import Bytestream.Status.Walk
import Bytestream.Tracer
import Bytestream.Word.Extend
import Bytestream.Word.Rotate
