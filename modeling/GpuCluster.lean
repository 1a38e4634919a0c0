import GpuCluster.Cluster.Addressing
import GpuCluster.Cluster.Admission
import GpuCluster.Cluster.AdvertisedModels
import GpuCluster.Cluster.Authorization
import GpuCluster.Cluster.CollectedReports
import GpuCluster.Cluster.Crash
import GpuCluster.Cluster.Draining
import GpuCluster.Cluster.FailedRequests
import GpuCluster.Cluster.HostIdentity
import GpuCluster.Cluster.ModelCache
import GpuCluster.Cluster.Monitoring
import GpuCluster.Cluster.NodeIdStarts
import GpuCluster.Cluster.PublicAddress
import GpuCluster.Cluster.RequestId
import GpuCluster.Cluster.Revocation
import GpuCluster.Cluster.RowActions
import GpuCluster.Cluster.ServedChats
import GpuCluster.Cluster.Wire
import GpuCluster.Coordinator.Eligibility
import GpuCluster.Coordinator.Fingerprints
import GpuCluster.Coordinator.Listing
import GpuCluster.Coordinator.MixedFleet
import GpuCluster.Coordinator.Sweep
import GpuCluster.Coordinator.Takeover
import GpuCluster.Gateway.CacheSize
import GpuCluster.Gateway.Responses
import GpuCluster.Mgmt.Authority
import GpuCluster.Mgmt.Certificates
import GpuCluster.Mgmt.Durability
import GpuCluster.Mgmt.EnrollIdentity
import GpuCluster.Mgmt.EnrollOnce
import GpuCluster.Mgmt.EnrollSerial
import GpuCluster.Mgmt.EnrollTokens
import GpuCluster.Mgmt.KeyPatches
import GpuCluster.Mgmt.LostUpdate
import GpuCluster.Mgmt.NodeStatus
import GpuCluster.Mgmt.RowCalls
import GpuCluster.Mgmt.SettingsPut
import GpuCluster.Mgmt.Sources
import GpuCluster.Mgmt.StuckLoads
import GpuCluster.Scheduler.ComputeGroup
import GpuCluster.Scheduler.Negotiation
import GpuCluster.Scheduler.Weights
import GpuCluster.Worker.Advertising
import GpuCluster.Worker.Confinement
import GpuCluster.Worker.Supervision
