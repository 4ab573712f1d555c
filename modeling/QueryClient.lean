import QueryClient.Proofs.Auth.Balance
import QueryClient.Proofs.Auth.FreshToken
import QueryClient.Proofs.Auth.LastTold
import QueryClient.Proofs.Auth.Retries
import QueryClient.Proofs.Codec.Variables
import QueryClient.Proofs.Config.Declarations
import QueryClient.Proofs.Config.Forms
import QueryClient.Proofs.Deferred.Callbacks
import QueryClient.Proofs.Executor.Dying
import QueryClient.Proofs.Executor.Newest
import QueryClient.Proofs.Manager.Answers
import QueryClient.Proofs.Manager.Faults
import QueryClient.Proofs.Manager.Holders
import QueryClient.Proofs.Manager.KeysApart
import QueryClient.Proofs.Manager.Unmissed
import QueryClient.Proofs.Mutation.Unshared
import QueryClient.Proofs.Rest.Answers
import QueryClient.Proofs.Rest.Outcomes
import QueryClient.Proofs.Service.Addressed
import QueryClient.Proofs.Service.Instances
import QueryClient.Proofs.Service.Typed
import QueryClient.Session.Run
