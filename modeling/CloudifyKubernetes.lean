import CloudifyKubernetes.Collections.OrderedDict
import CloudifyKubernetes.Effects.Program
import CloudifyKubernetes.DeleteScope
import CloudifyKubernetes.DeleteOptions
import CloudifyKubernetes.CustomObjects
import CloudifyKubernetes.Creation
import CloudifyKubernetes.Uninstall
import CloudifyKubernetes.Adoption
import CloudifyKubernetes.Pairing
import CloudifyKubernetes.Siblings
import CloudifyKubernetes.StoreOperations
import CloudifyKubernetes.Cleanup
import CloudifyKubernetes.FileRecords
import CloudifyKubernetes.Resumption
import CloudifyKubernetes.Completion
import CloudifyKubernetes.DeleteAttempts
import CloudifyKubernetes.FailedDeletion
import CloudifyKubernetes.Additions
import CloudifyKubernetes.StatusChecks
import CloudifyKubernetes.DeleteBody
import CloudifyKubernetes.Alternates
import CloudifyKubernetes.MissingResources
import CloudifyKubernetes.NamespaceResolution
import CloudifyKubernetes.TokenDeletion
import CloudifyKubernetes.DecodedChanges
import CloudifyKubernetes.DefinitionRemoval
import CloudifyKubernetes.JsonCleanup
import CloudifyKubernetes.DeletionRecursion
import CloudifyKubernetes.TokenPayloads
import CloudifyKubernetes.TaskFlag
import CloudifyKubernetes.JsonLifecycle
import CloudifyKubernetes.DriftChecks
import CloudifyKubernetes.HealAttempts
import CloudifyKubernetes.DeleteAcknowledgements
import CloudifyKubernetes.TokenRetries
import CloudifyKubernetes.LifecycleSteps
import CloudifyKubernetes.TokenProvenance
import CloudifyKubernetes.ClaimReleases
import CloudifyKubernetes.Readiness
import CloudifyKubernetes.UpdateRuns
import CloudifyKubernetes.DeletionSources
import CloudifyKubernetes.DeletionProgress
import CloudifyKubernetes.CompletedRuns
