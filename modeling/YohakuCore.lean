import YohakuCore.Privacy.CaptureService
import YohakuCore.Privacy.Fingerprint
import YohakuCore.Protocol.Sequencer
import YohakuCore.Companion.RefreshTrigger
import YohakuCore.Companion.Suspension
import YohakuCore.Companion.Timers
import YohakuCore.Companion.SingleFlight
import YohakuCore.Companion.SequenceReuse
import YohakuCore.Companion.WakeOrder
import YohakuCore.Companion.FlagAgreement
import YohakuCore.Companion.GrantedConsent
import YohakuCore.Companion.FailedConsent
import YohakuCore.Companion.FailedPairing
import YohakuCore.Companion.UnpairedDevice
import YohakuCore.Privacy.RuleCommands
import YohakuCore.Privacy.FingerprintDocument
import YohakuCore.Privacy.CosmeticEdits
import YohakuCore.Protocol.WireDates
import YohakuCore.Capture.MediaFlow
import YohakuCore.Capture.Foreground
import YohakuCore.Companion.WriteOrder
import YohakuCore.Store.KeyedStores
import YohakuCore.Companion.CredentialPin
import YohakuCore.Capture.Publishable
import YohakuCore.Protocol.RequestJson
import YohakuCore.Companion.PreviewBasis
import YohakuCore.Companion.RequestSize
import YohakuCore.Companion.CompatibilitySignal
import YohakuCore.Companion.OwnAnswers
import YohakuCore.Companion.LeaseRenewal
import YohakuCore.Protocol.VersionPrecedence
import YohakuCore.Capture.DisplayName
import YohakuCore.Store.Base64Standard
import YohakuCore.Store.CredentialBlob
import YohakuCore.Companion.ThrottleWait
import YohakuCore.Companion.SessionUnlinkability
import YohakuCore.Capture.StoppedWatcher
import YohakuCore.Store.ReentrantListeners
import YohakuCore.Privacy.AppIdNormalization
import YohakuCore.Capture.TransitionListeners
import YohakuCore.Capture.WindowShutdown
import YohakuCore.Capture.SessionHandlers
import YohakuCore.Capture.SemanticChanges
import YohakuCore.Capture.NameResolvers
import YohakuCore.Shell.Tray
import YohakuCore.Shell.RecentApps
import YohakuCore.Store.KeyringStore
import YohakuCore.Privacy.SettingsCommands
import YohakuCore.Companion.ClaimedConnection
import YohakuCore.Shell.PublishedChanges
