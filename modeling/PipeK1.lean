import PipeK1.Keys
import PipeK1.Decrypt
import PipeK1.EncryptProperties
import PipeK1.RoundTrip
import PipeK1.DecryptContract
import PipeK1.Library.Chunking
import PipeK1.StreamIntegrity
import PipeK1.SpoolContract
import PipeK1.GitShim
import PipeK1.Library.Arguments
import PipeK1.Cli
import PipeK1.SenderContract
import PipeK1.VerifyContract
import PipeK1.Library.Sha256
import PipeK1.ShimContract
import PipeK1.Library.ChaCha20Poly1305
import PipeK1.Library.TextCodecs
import PipeK1.Reference
import PipeK1.SignatureProperties
import PipeK1.SignatureContract
import PipeK1.SignatureBinding
import PipeK1.Library.Lockstep
import PipeK1.StreamCompleteness
import PipeK1.StreamingRefinement
import PipeK1.PairedRuns
import PipeK1.SpoolFailures
import PipeK1.Library.Bech32
import PipeK1.KeyRoles
import PipeK1.CanonicalFraming
import PipeK1.EncryptContract
import PipeK1.SpoolCeiling
import PipeK1.DecryptExitCodes
import PipeK1.TrustContract
import PipeK1.RepositoryTrust
import PipeK1.StatusLines
import PipeK1.KeyIdContract
import PipeK1.Library.Gregorian
import PipeK1.SignatureDates
import PipeK1.MaxSizeContract
import PipeK1.ModeContract
import PipeK1.OptionContract
import PipeK1.Delivery
import PipeK1.ArmorContract
import PipeK1.Environment
import PipeK1.ScannerContract
import PipeK1.SpoolBlocks
import PipeK1.StreamNonces
import PipeK1.AgreementContract
import PipeK1.DeliveryContract
import PipeK1.EncryptFailures
import PipeK1.OnlineStreams
import PipeK1.InputBounds
import PipeK1.RecipientKeys
import PipeK1.RetryingCommands
import PipeK1.VerifierAgreement
import PipeK1.ExitContract
import PipeK1.SilentFailures
import PipeK1.Encodings
import PipeK1.InMemory
import PipeK1.PublishedKeys
import PipeK1.SenderAnonymity
import PipeK1.EntropySearch
import PipeK1.Inspection
import PipeK1.Pipelines
import PipeK1.StreamMeaning
import PipeK1.Surroundings
