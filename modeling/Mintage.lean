import Mintage.Account.Address
import Mintage.Account.Basic
import Mintage.Account.Vesting
import Mintage.Block.Begin
import Mintage.Block.Genesis
import Mintage.Block.Producer
import Mintage.Block.Store
import Mintage.Data.Datum
import Mintage.Data.Json
import Mintage.Data.OrderedMap
import Mintage.Data.Packed
import Mintage.Data.Toml
import Mintage.Data.Toml.Quoted
import Mintage.Data.Toml.Scalar
import Mintage.Data.Toml.Table
import Mintage.Emission.Params
import Mintage.Emission.Subsidy
import Mintage.Emission.Timestamp
import Mintage.Error.Detail
import Mintage.Error.Mint
import Mintage.Error.State
import Mintage.Error.Value
import Mintage.Ledger.Bank
import Mintage.Ledger.Basic
import Mintage.Ledger.Packing
import Mintage.Main
import Mintage.Money.Coins
import Mintage.Net.Authority
import Mintage.Net.Host
import Mintage.Net.Ip
import Mintage.Net.Percent
import Mintage.Net.Punycode
import Mintage.Net.Reply
import Mintage.Net.Socket
import Mintage.Net.Url
import Mintage.Net.UrlPath
import Mintage.Node.Api
import Mintage.Node.Config
import Mintage.Node.Metrics
import Mintage.Node.Refresh
import Mintage.Number.Binary64
import Mintage.Number.Dec
import Mintage.Number.Shortest
import Mintage.Number.Word
import Mintage.Program.Arguments
import Mintage.Program.Console
import Mintage.Program.Help
import Mintage.Program.Node
import Mintage.Program.Query
import Mintage.Program.QueryLine
import Mintage.Proofs.Account.Address
import Mintage.Proofs.Account.Release
import Mintage.Proofs.Account.Vesting
import Mintage.Proofs.Block.Accounting
import Mintage.Proofs.Block.AnyStore
import Mintage.Proofs.Block.Begin
import Mintage.Proofs.Block.Conservation
import Mintage.Proofs.Block.Effect
import Mintage.Proofs.Block.Failures
import Mintage.Proofs.Block.Genesis
import Mintage.Proofs.Block.Initialization
import Mintage.Proofs.Block.Lifecycle
import Mintage.Proofs.Block.Numbers
import Mintage.Proofs.Block.Parameters
import Mintage.Proofs.Block.Producer
import Mintage.Proofs.Block.Reports
import Mintage.Proofs.Block.Restart
import Mintage.Proofs.Block.Scheduled
import Mintage.Proofs.Block.Store
import Mintage.Proofs.Data.Datum
import Mintage.Proofs.Data.History
import Mintage.Proofs.Data.Json
import Mintage.Proofs.Data.OrderedMap
import Mintage.Proofs.Data.Packed
import Mintage.Proofs.Emission.Decay
import Mintage.Proofs.Emission.Exhaustion
import Mintage.Proofs.Emission.Issuance
import Mintage.Proofs.Emission.Params
import Mintage.Proofs.Ledger.Bank
import Mintage.Proofs.Ledger.Contents
import Mintage.Proofs.Ledger.Entries
import Mintage.Proofs.Ledger.Gains
import Mintage.Proofs.Ledger.Keys
import Mintage.Proofs.Ledger.Packing
import Mintage.Proofs.Ledger.Records
import Mintage.Proofs.Ledger.Refusals
import Mintage.Proofs.Ledger.Sound
import Mintage.Proofs.Ledger.Totals
import Mintage.Proofs.Money.Coins
import Mintage.Proofs.Money.Laws
import Mintage.Proofs.Node.Refresh
import Mintage.Proofs.Number.Dec
import Mintage.Proofs.Number.Numeral
import Mintage.Proofs.Number.Rounding
import Mintage.Proofs.Program.Provision
import Mintage.Proofs.Program.QueryLine
import Mintage.Proofs.Schedule.Cache
import Mintage.Proofs.Schedule.Merge
import Mintage.Proofs.Schedule.Rule
import Mintage.Proofs.Schedule.Sharing
import Mintage.Proofs.Text.Blank
import Mintage.Proofs.Text.Digits
import Mintage.Proofs.Text.Utf8
import Mintage.Proofs.Wire.Exchange
import Mintage.Proofs.Wire.Types
import Mintage.Schedule.Cache
import Mintage.Schedule.Feed
import Mintage.Schedule.Snapshot
import Mintage.Text.Blank
import Mintage.Text.Digits
import Mintage.Text.Pieces
import Mintage.Text.Quoted
import Mintage.Text.Utf8
import Mintage.Wire.Account
import Mintage.Wire.Config
import Mintage.Wire.Ledger
import Mintage.Wire.Money
import Mintage.Wire.Query
import Mintage.Wire.Schedule
