import ThawGate.Gate.Tighten
import ThawGate.Keeper.Accounts
import ThawGate.Keeper.Mirror
import ThawGate.Lib.Run
import ThawGate.Token.Authority
import ThawGate.Token.Backed
import ThawGate.ExtraMetas
import ThawGate.Hook.ListAccount
import ThawGate.Hook.Refusal
import ThawGate.Keeper.HolderExact
import ThawGate.Keeper.Observations
import ThawGate.Screener.Coverage
import ThawGate.Lib.Balance
import ThawGate.Token.Circulation
import ThawGate.Token.PauseFlags
import ThawGate.Token.Quota
import ThawGate.Keeper.MintAccounts
import ThawGate.Keeper.MintReads
import ThawGate.Keeper.Resync
import ThawGate.Screener.Entries
import ThawGate.Keeper.EventLogs
import ThawGate.Logs.Attribution
import ThawGate.Sdk.PolicyInput
import ThawGate.Attestor.Decision
import ThawGate.Attestor.Ticks
import ThawGate.Token.LegacyConfig
import ThawGate.Keeper.Freezer
import ThawGate.Gate.Admin
import ThawGate.Gate.Agree
import ThawGate.Gate.ListState
import ThawGate.DemoPool.Price
import ThawGate.Frontend.Amounts
import ThawGate.Frontend.Attestation
import ThawGate.Token.Periods
import ThawGate.Token.Grants
import ThawGate.Token.Replay
import ThawGate.Token.Recipient
import ThawGate.Token.ReserveBytes
import ThawGate.Token.Seizure
import ThawGate.Backend.AtMostOnce
import ThawGate.Backend.Blacklist
import ThawGate.Backend.PausedFlag
import ThawGate.Keeper.Announced
import ThawGate.Keeper.Settled
import ThawGate.Keeper.Triggers
import ThawGate.WebhookService.Verdict
