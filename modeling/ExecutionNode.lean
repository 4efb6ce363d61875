import ExecutionNode.Config.Json
import ExecutionNode.Config.Toml
import ExecutionNode.Engine.BackwardSync
import ExecutionNode.Engine.Metrics
import ExecutionNode.Log.Setup
import ExecutionNode.Proofs.Engine.Accounting
import ExecutionNode.Proofs.Engine.Effects
import ExecutionNode.Proofs.Engine.Faults
import ExecutionNode.Proofs.Engine.Serving
import ExecutionNode.Proofs.Engine.Verdicts
import ExecutionNode.Proofs.Payload.Notation
import ExecutionNode.Proofs.Sync.Phase
import ExecutionNode.Proofs.Sync.Reactions
import ExecutionNode.Proofs.Sync.Resumption
import ExecutionNode.Proofs.Sync.Termination
import ExecutionNode.Proofs.Trie.Commitment
import ExecutionNode.Simulation.Journal
import ExecutionNode.Simulation.Notation
import ExecutionNode.Simulation.Scenario
import ExecutionNode.Simulation.Selections
import ExecutionNode.Simulation.Trial
import ExecutionNode.Sync.Summary
import ExecutionNode.Proofs.Duration.Words
import ExecutionNode.Proofs.Toml.Document
import ExecutionNode.Proofs.Config.Stored
import ExecutionNode.Proofs.Header.Canonical
import ExecutionNode.Proofs.Transaction.Acceptance
import ExecutionNode.Proofs.Sync.Agreement
import ExecutionNode.Proofs.Sync.Refusal
import ExecutionNode.Proofs.Sync.Relay
import ExecutionNode.Proofs.Withdrawal.Reading
import ExecutionNode.Proofs.Payload.Requests
import ExecutionNode.Proofs.Sync.Published
import ExecutionNode.Proofs.Sync.Trailing
import ExecutionNode.Proofs.Sync.Starting
import ExecutionNode.Proofs.Quantity.Reading
import ExecutionNode.Proofs.Sync.Armings
import ExecutionNode.Proofs.Simulation.Chains
