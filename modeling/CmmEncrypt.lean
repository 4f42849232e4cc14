import CmmEncrypt.Framing
import CmmEncrypt.KeySeparation
import CmmEncrypt.Noninterference
import CmmEncrypt.RoundTrip
import CmmEncrypt.CompactSize
import CmmEncrypt.KeyAgreement
import CmmEncrypt.Absence
import CmmEncrypt.PointerWidth
import CmmEncrypt.Plaintext
import CmmEncrypt.ManyCalls
import CmmEncrypt.Transaction
import CmmEncrypt.Reencryption
import CmmEncrypt.Malleability
import CmmEncrypt.Sizes
import CmmEncrypt.EncryptDescriptor
import CmmEncrypt.PassString
import CmmEncrypt.HeapInvariants
