import RethBsc.Contracts.Election
import RethBsc.Contracts.Upgrades
import RethBsc.Evm.Authorizations
import RethBsc.Miner.BidRewards
import RethBsc.Miner.BidSidecars
import RethBsc.Miner.BlockTime
import RethBsc.Miner.ExtraRoundTrip
import RethBsc.Miner.MinedSeal
import RethBsc.Miner.PayloadBounds
import RethBsc.Network.Peers
import RethBsc.Network.UpgradeStatus
import RethBsc.Node.BlockImport
import RethBsc.Node.BodyValidation
import RethBsc.Node.EpochCaches
import RethBsc.Node.FinalityMonotone
import RethBsc.Node.FinalityRewards
import RethBsc.Node.JournalRestart
import RethBsc.Node.SlashingSafety
import RethBsc.Node.SnapshotRuns
import RethBsc.Node.SystemTxMatching
import RethBsc.Node.TotalDifficulty
import RethBsc.Parlia.EpochSwitch
import RethBsc.Parlia.Int63n
import RethBsc.Parlia.InturnRun
import RethBsc.Parlia.SealBinding
import RethBsc.Parlia.SeedRand
import RethBsc.Parlia.ShuffleTurns
import RethBsc.Parlia.VotePoolPruning
import RethBsc.Precompiles.CometBftBinding
import RethBsc.Precompiles.CometBftRoundTrip
import RethBsc.Precompiles.DoubleSign
import RethBsc.Precompiles.Selection
