import GitHubProvider.Interaction.Program
import GitHubProvider.Interaction.Machine
import GitHubProvider.Interaction.Agreement
import GitHubProvider.Text.Pieces
import GitHubProvider.Text.Chars
import GitHubProvider.Json.Value
import GitHubProvider.Json.Text
import GitHubProvider.Json.RoundTrip
import GitHubProvider.Lib
import GitHubProvider.Http
import GitHubProvider.Locator
import GitHubProvider.Api
import GitHubProvider.Serve
import GitHubProvider.Locator.Canonical
import GitHubProvider.Serve.Requests
import GitHubProvider.Json.Compact
import GitHubProvider.Serve.Replies
import GitHubProvider.Serve.Resolution
import GitHubProvider.Serve.Effects
import GitHubProvider.Serve.History
import GitHubProvider.Serve.Snapshots
import GitHubProvider.Serve.Calls
import GitHubProvider.Hash
import GitHubProvider.Serve.Listings
import GitHubProvider.Api.Answers
import GitHubProvider.Serve.Provenance
import GitHubProvider.Serve.Secrecy
import GitHubProvider.Client
import GitHubProvider.Client.Answers
import GitHubProvider.Client.Bodies
import GitHubProvider.Interaction.Fixed
import GitHubProvider.Serve.Uncached
import GitHubProvider.Framing
import GitHubProvider.Main
import GitHubProvider.Main.Stream
import GitHubProvider.Locator.Grammar
import GitHubProvider.Locator.Identity
import GitHubProvider.Text.Url
import GitHubProvider.Api.Targets
import GitHubProvider.Serve.Entries
import GitHubProvider.Serve.Credentials
import GitHubProvider.Serve.Endings
import GitHubProvider.Serve.Refusals
import GitHubProvider.Serve.FailClosed
import GitHubProvider.Serve.FileAgreement
import GitHubProvider.Interaction.Simulation
import GitHubProvider.Serve.Ideal
import GitHubProvider.Serve.Budget
import GitHubProvider.Main.Process
import GitHubProvider.Main.Wire
import GitHubProvider.Client.Codes
import GitHubProvider.Serve.Reasons
import GitHubProvider.Main.Ideal
import GitHubProvider.Main.Members
import GitHubProvider.Main.Integrity
import GitHubProvider.Main.Departure
import GitHubProvider.Serve.Repetition
