import ExprShell.Main
import ExprShell.Proofs.Conversation.Invitations
import ExprShell.Proofs.Conversation.Prompts
import ExprShell.Proofs.Conversation.Recovery
import ExprShell.Proofs.Conversation.Refusals
import ExprShell.Proofs.Conversation.Sessions
import ExprShell.Proofs.Descent.Chains
import ExprShell.Proofs.Grammar.Exactness
import ExprShell.Proofs.Grammar.Rejection
import ExprShell.Proofs.Native
import ExprShell.Proofs.Program.Equality
import ExprShell.Proofs.Program.PrecedenceOrder
import ExprShell.Proofs.Program.Relaying
import ExprShell.Proofs.Program.RoundTrip
import ExprShell.Proofs.Program.Verdict
import ExprShell.Proofs.PrototypeTable.Undo
import ExprShell.Proofs.Stream.Peeking
import ExprShell.Proofs.Token.Adjacency
import ExprShell.Proofs.Token.Patterns
