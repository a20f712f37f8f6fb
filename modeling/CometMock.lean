import CometMock.Basic
import CometMock.Crypto
import CometMock.Types.Validator
import CometMock.Types.Params
import CometMock.Types.Block
import CometMock.Types.VoteSet
import CometMock.Abci
import CometMock.State
import CometMock.Client
import CometMock.Round
import CometMock.Lemmas.UpdateState
import CometMock.Lemmas.Engine
import CometMock.Lemmas.Votes
import CometMock.Lemmas.Round
import CometMock.RpcServer
import CometMock.Lemmas.Runs
import CometMock.Lemmas.Proposer
import CometMock.Lemmas.Paging
import CometMock.Lemmas.Transactions
import CometMock.Lemmas.BlockTime
import CometMock.Lemmas.VoteExtensions
import CometMock.Lemmas.ChangeSet
import CometMock.Lemmas.StateInvariants
import CometMock.Session
import CometMock.Lemmas.Session
import CometMock.Lemmas.Genesis
import CometMock.Lemmas.Messages
import CometMock.Lemmas.Heights
import CometMock.Lemmas.VoteTally
import CometMock.Lemmas.LightCommit
