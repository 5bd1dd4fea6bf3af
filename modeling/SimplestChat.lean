import SimplestChat.Auth.CredentialCuts
import SimplestChat.Auth.FailureDelays
import SimplestChat.Auth.Freshness
import SimplestChat.Auth.Registration
import SimplestChat.Auth.SignInMethods
import SimplestChat.Chat.Acceptance
import SimplestChat.Chat.Edits
import SimplestChat.Chat.Excerpts
import SimplestChat.Chat.ReactionGroups
import SimplestChat.Chat.ReadCursors
import SimplestChat.Chat.Retention
import SimplestChat.Client.AccountEvents
import SimplestChat.Client.Receiving
import SimplestChat.Client.Replies
import SimplestChat.Client.SpeakerFollow
import SimplestChat.Media.Placements
import SimplestChat.Policy.Capacity
import SimplestChat.Policy.Coherence
import SimplestChat.Policy.SettingsSync
import SimplestChat.Policy.Streams
import SimplestChat.Push.Queue
import SimplestChat.Room.Directory
import SimplestChat.Room.LiveInvites
import SimplestChat.Room.Names
import SimplestChat.Room.PendingJoins
import SimplestChat.Room.Quarantine
import SimplestChat.Room.SavedRooms
import SimplestChat.Room.SlidingWindow
import SimplestChat.Room.UnknownOutcomes
import SimplestChat.Room.WorkerDeath
import SimplestChat.Signaling.Credentials
import SimplestChat.Signaling.GraceOwnership
import SimplestChat.Signaling.LobbyFlag
import SimplestChat.Signaling.TokenBuckets
